import Stencil.Proofs.CachedPages
import Stencil.Proofs.Caching.Outputs

/-!
What is served is what was stored last. A page that is given without being rendered is the output of the
latest call that stored one under its key; since then nothing dropped what is kept under this key, its time
has not run out, and the file of the page has the time of last change that it had.
-/

namespace Stencil

/-- Whether an action drops what is kept under a key. -/
def Action.drops (key : String) : Action → Bool
  | .clear => true
  | .invalidate other => other == key
  | .invalidateStart start => start.toList.isPrefixOf key.toList
  | _ => false

namespace Session

/-- A call for a page that is not served: it succeeds, and stores its output under a key. -/
structure Stores (session : Session) (request : PageRequest) (key : String) (page : Page) : Prop where
  unserved : (session.look request).1 = none
  key : session.outputKey request = key
  text : (session.page request).1 = .ok page.text
  expiry : page.expiry = request.expiry
  modified : session.time? request = some page.modified

/-- What was done after a history neither dropped what was kept under a key nor stored a page there. -/
structure Undisturbed (start : Session) (later earlier : History) (key : String) : Prop where
  undropped : ∀ action ∈ later, action.drops key = false
  unstored : ∀ last request first, later = last ++ .page request :: first →
    ∀ page, ¬ (start.after (first ++ earlier)).Stores request key page

/-- A page that the latest call that stored one under a key stored there. -/
def Latest (start : Session) (history : History) (key : String) (page : Page) : Prop :=
  ∃ later asked earlier, history = later ++ .page asked :: earlier ∧
    (start.after earlier).Stores asked key page ∧
    Undisturbed start later (.page asked :: earlier) key

variable {start session : Session} {history : History} {request : PageRequest} {key : String}
  {page : Page}

theorem Stores.latest (h : (start.after history).Stores request key page) :
    Latest start (.page request :: history) key page := by
  refine ⟨[], request, history, rfl, h, fun _ hmem => absurd hmem List.not_mem_nil, ?_⟩
  intro last other first hnil
  exact absurd hnil.symm (List.append_ne_nil_of_right_ne_nil last (List.cons_ne_nil _ _))

theorem Latest.later (h : Latest start history key page) {action : Action}
    (hdrops : action.drops key = false)
    (hstores : ∀ request, action = .page request →
      ∀ page, ¬ (start.after history).Stores request key page) :
    Latest start (action :: history) key page := by
  obtain ⟨later, asked, earlier, rfl, stores, undisturbed⟩ := h
  refine ⟨action :: later, asked, earlier, rfl, stores,
    List.forall_mem_cons.2 ⟨hdrops, undisturbed.undropped⟩, fun last request first hlater => ?_⟩
  cases last with
  | nil =>
      obtain ⟨rfl, rfl⟩ := List.cons.inj hlater
      exact hstores request rfl
  | cons latest last => exact undisturbed.unstored last request first (List.cons.inj hlater).2

theorem Latest.asked (h : Latest start history key page)
    (hstores : ∀ page, ¬ (start.after history).Stores request key page) :
    Latest start (.page request :: history) key page :=
  h.later rfl fun _ haction => Action.page.inj haction ▸ hstores

/-- An action that neither drops nor stores anything. -/
theorem holds_later (h : session.work.engine.outputs.Holds (Latest start history)) {action : Action}
    (hdrops : ∀ key, action.drops key = false) (hpage : ∀ request, action ≠ .page request) :
    session.work.engine.outputs.Holds (Latest start (action :: history)) :=
  fun entry hmem => (h entry hmem).later (hdrops _) fun request haction =>
    absurd haction (hpage request)

/-- A page that is asked for leaves the latest output under every key. -/
theorem holds_page (h : (start.after history).work.engine.outputs.Holds (Latest start history)) :
    ((start.after history).page request).2.work.engine.outputs.Holds
      (Latest start (.page request :: history)) := by
  obtain ⟨-, hlook⟩ := holds_look request h
  rcases page_cases (start.after history) request with
    ⟨page, after, hserved, hpage⟩ | ⟨after, hmissed, hrest⟩
  · -- a page that is served is not stored again
    rw [hserved] at hlook
    rw [hpage]
    refine fun entry hmem => (hlook entry hmem).asked fun page' stores => ?_
    cases (congrArg Prod.fst hserved).symm.trans stores.unserved
  · rw [hmissed] at hlook
    rcases hrest with ⟨fault, last, hrendered, hpage⟩ | ⟨text, modified, last, hrendered, htime, hpage⟩
    · rw [hpage, rendering_outputs hrendered]
      refine fun entry hmem => (hlook entry hmem).asked fun page' stores => ?_
      cases (congrArg Prod.fst hpage).symm.trans stores.text
    · -- what is kept under the other keys is still the latest there
      have stores : (start.after history).Stores request ((start.after history).outputKey request)
          ⟨text, request.expiry, modified⟩ :=
        ⟨congrArg Prod.fst hmissed, rfl, congrArg Prod.fst hpage, rfl, htime⟩
      rw [hpage, rendering_outputs hrendered]
      refine Cache.holds_insert_others (fun entry hmem hother => ?_) stores.latest
      exact (hlook entry hmem).asked fun page' stores' => hother stores'.key.symm

variable (history) in
/-- Whatever is kept in a session is the latest output under its key. -/
theorem holds_latest (hstart : start.work.engine.outputs.entries = []) :
    (start.after history).work.engine.outputs.Holds (Latest start history) := by
  induction history with
  | nil =>
      intro entry hmem
      change entry ∈ start.work.engine.outputs.entries at hmem
      rw [hstart] at hmem
      exact absurd hmem List.not_mem_nil
  | cons action earlier ih =>
      change ((start.after earlier).perform action).work.engine.outputs.Holds _
      unfold perform
      cases action with
      | page request =>
          dsimp only
          exact holds_page ih
      | call call =>
          have houtputs := answer_passes Engine.passage_outputs (start.after earlier) call
          dsimp only
          rw [houtputs]
          exact holds_later ih (fun _ => rfl) fun _ haction => (nomatch haction)
      | clear => exact Cache.holds_clear
      | invalidate key =>
          refine Cache.holds_erase_others fun entry hmem hother => ?_
          exact (ih entry hmem).later (beq_false_of_ne (Ne.symm hother)) fun _ haction =>
            (nomatch haction)
      | invalidateStart first =>
          refine Cache.holds_filterKeys_kept
            (fun key : String => !first.toList.isPrefixOf key.toList) fun entry hmem hkept => ?_
          have hother : first.toList.isPrefixOf entry.key.toList = false := by simpa using hkept
          exact (ih entry hmem).later hother fun _ haction => (nomatch haction)
      | write | erase | wait =>
          exact holds_later ih (fun _ => rfl) fun _ haction => (nomatch haction)

/-- A page that is not served is given as it is rendered, and stored under its key if there is one. -/
theorem stored_of_unserved (h : (session.look request).1 = none) :
    (session.page request).1 = (session.rendering request).1 ∧
      ∀ text, (session.page request).1 = .ok text → ∃ page, page.text = text ∧
        session.Stores request (session.outputKey request) page ∧
        ∃ outputs : Cache String Page, (session.page request).2.work.engine.outputs =
          outputs.insert (session.outputKey request) page := by
  obtain ⟨outputs, hlook⟩ := session.exists_look request
  rcases page_cases session request with ⟨page, after, hfound, -⟩ | ⟨after, hmissed, hrest⟩
  · rw [hfound] at h
    cases h
  · rw [hmissed] at hlook
    obtain rfl : after = session.withOutputs outputs := hlook
    rw [← rendering_withOutputs outputs]
    rcases hrest with ⟨fault, last, hrendered, hpage⟩ | ⟨text, modified, last, hrendered, htime, hpage⟩
    · rw [hrendered, hpage]
      exact ⟨rfl, fun text htext => (nomatch htext)⟩
    · refine ⟨by rw [hrendered, hpage], fun given hgiven => ?_⟩
      obtain rfl : text = given := Except.ok.inj ((congrArg Prod.fst hpage).symm.trans hgiven)
      exact ⟨⟨text, request.expiry, modified⟩, rfl, ⟨h, rfl, hgiven, rfl, htime⟩,
        last.work.engine.outputs, congrArg (·.2.work.engine.outputs) hpage⟩

/-- A call that fails stores nothing. -/
theorem entries_of_fault {fault : Fault} (h : (session.page request).1 = .error fault) :
    (session.page request).2.work.engine.outputs.entries ⊆ session.work.engine.outputs.entries := by
  rcases page_cases session request with ⟨page, after, -, hpage⟩ | ⟨after, hmissed, hrest⟩
  · rw [hpage] at h
    cases h
  · have hentries := look_entries (congrArg Prod.fst hmissed)
    rcases hrest with ⟨fault', last, hrendered, hpage⟩ | ⟨text, modified, last, -, -, hpage⟩
    · rw [hpage, rendering_outputs hrendered]
      rw [hmissed] at hentries
      exact hentries
    · rw [hpage] at h
      cases h

/-- A page is served as the latest call that stored one under its key gave it, nothing was done since that
drops it, its time has not run out, and its file has the time of last change that it had. A page that is not
served is given as it is rendered, and stored; a call that fails stores nothing. -/
theorem served_or_stored (engine : Engine) (shared : Shared) (site : Site) (history : History)
    (request : PageRequest) :
    let start := opened engine shared site
    let now := start.after history
    let key := now.outputKey request
    (∀ page, (now.look request).1 = some page →
      (now.page request).1 = .ok page.text ∧
      (∃ outputs, (now.page request).2 = now.withOutputs outputs) ∧
      ∃ later asked earlier, history = later ++ .page asked :: earlier ∧
        (start.after earlier).Stores asked key page ∧
        Undisturbed start later (.page asked :: earlier) key ∧
        (∀ expiry ∈ asked.expiry, now.site.now < expiry) ∧
        now.time? request = some page.modified) ∧
    ((now.look request).1 = none →
      (now.page request).1 = (now.rendering request).1 ∧
      ∀ text, (now.page request).1 = .ok text → ∃ page, page.text = text ∧
        now.Stores request key page ∧
        ∃ outputs : Cache String Page,
          (now.page request).2.work.engine.outputs = outputs.insert key page) ∧
    ∀ fault, (now.page request).1 = .error fault →
      (now.page request).2.work.engine.outputs.entries ⊆ now.work.engine.outputs.entries := by
  intro start now key
  refine ⟨fun page hfound => ?_, stored_of_unserved, fun fault => entries_of_fault⟩
  have hlatest : now.work.engine.outputs.Holds (Latest start history) := holds_latest history rfl
  obtain ⟨⟨later, asked, earlier, hhistory, stores, undisturbed⟩, hexpiry, htime⟩ :=
    (holds_look request hlatest).1 page hfound
  obtain ⟨outputs, hlook⟩ := now.exists_look request
  rcases page_cases now request with ⟨page', after, hserved, hpage⟩ | ⟨after, hmissed, -⟩
  · rw [hserved] at hfound hlook
    obtain rfl := Option.some.inj hfound
    rw [hpage]
    exact ⟨rfl, ⟨outputs, hlook⟩, later, asked, earlier, hhistory, stores, undisturbed,
      stores.expiry ▸ hexpiry, htime⟩
  · rw [hmissed] at hfound
    cases hfound

/-- The second of two calls is served what the first one stored, a while later. -/
theorem served_or_stored_again :
    let start := opened rooted {} (bare (folder "one" ""))
    let asked : PageRequest := ⟨"page", "k", some 9, false, {}⟩
    let now := start.after [.wait 5, .page asked]
    (now.look asked).1 = some ⟨"one", some 9, 1⟩ ∧ (now.page asked).1 = .ok "one" ∧
      start.Stores asked "k" ⟨"one", some 9, 1⟩ := by
  intro start asked now
  have hfound : (now.look asked).1 = some ⟨"one", some 9, 1⟩ := by decide +kernel
  obtain ⟨hgiven, -, later, first, earlier, hhistory, stores, -⟩ :=
    (served_or_stored rooted {} (bare (folder "one" "")) [.wait 5, .page asked] asked).1 _ hfound
  refine ⟨hfound, hgiven, ?_⟩
  -- there is only one call that can have stored the page
  obtain ⟨rfl, rfl⟩ : first = asked ∧ earlier = [] := by
    rcases later with - | ⟨_, - | ⟨_, later⟩⟩
    · cases hhistory
    · cases hhistory
      exact ⟨rfl, rfl⟩
    · have hlength := congrArg List.length hhistory
      simp only [List.length_cons, List.length_append, List.length_nil] at hlength
      omega
  exact stores

end Session

end Stencil
