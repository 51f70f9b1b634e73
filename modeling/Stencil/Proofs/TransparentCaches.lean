import Stencil.Proofs.Caching.Soundness

/-!
The trees and the texts at hand are transparent: whatever was done in a session, a call is answered as by a
new engine on the disk as it is. For a template that was prepared the new engine renders its text.
-/

namespace Stencil

open Template

/-- The call that gives a new engine the text of what was prepared. -/
def Call.alone (prepared : List (String × Engine.Prepared)) (call : Call) : Call :=
  match call with
  | .renderPrepared index extra =>
      match prepared[index]? with
      | some (template, _) => .render template extra
      | none => call
  | _ => call

namespace Session

/-- A new engine reckons as one that has worked on the same disk and with the same decisions. -/
theorem reckoned_alone (engine : Engine) (shared : Shared) (session : Session) (call : Call) :
    reckoned engine shared (opened engine session.work.shared session.site)
      (call.alone session.prepared) = reckoned engine shared session call := by
  cases call with
  | renderPrepared index extra =>
      unfold Call.alone reckoned
      dsimp only
      cases session.prepared[index]? with
      | none => rfl
      | some entry => rfl
  | _ => rfl

variable (engine : Engine) (shared : Shared) (site : Site) (history : History) (call : Call)

/-- A call is answered as by a new engine with the same settings on the disk as it is, whatever was done
before, if every file that was written got a time of last change that it never had before and no two of
the texts that came up have one digest. -/
theorem answer_eq_opened (anew : site.disk.EditedAnew history)
    (digests : CollisionFree (site.disk.textsIn history ++ call.texts)) :
    let session := (opened engine shared site).after history
    (session.answer call).1 =
      ((opened engine session.work.shared session.site).answer (call.alone session.prepared)).1 := by
  intro session
  have known : Known (site.disk.states history) (site.disk.textsIn history ++ call.texts) :=
    anew.known digests (List.subset_append_left ..)
  have hsession : session.Sound engine shared (site.disk.states history)
      (site.disk.textsIn history ++ call.texts) :=
    (after_sound (fun _ _ _ => True) known (List.subset_append_left ..)
      (fun _ _ _ _ _ => trivial) fun _ _ _ _ _ _ _ _ _ _ _ => trivial).1
  have hdisk : session.site.disk ∈ site.disk.states history := by
    rw [(after_site _ _).2]
    exact site.disk.after_mem_states history
  have hopened : (opened engine session.work.shared session.site).Sound engine shared
      (site.disk.states history) (site.disk.textsIn history ++ call.texts) :=
    ⟨⟨rfl, rfl, rfl, rfl, rfl, hsession.work.globals, hsession.work.sharedFilters,
      Shelf.sound_empty _⟩, fun _ hmem => absurd hmem List.not_mem_nil⟩
  have halone : (call.alone session.prepared).texts ⊆ site.disk.textsIn history ++ call.texts := by
    cases call with
    | renderPrepared index extra =>
        unfold Call.alone
        dsimp only
        cases hprepared : session.prepared[index]? with
        | none => exact fun _ hmem => absurd hmem List.not_mem_nil
        | some entry =>
            have := (hsession.prepared entry (List.mem_of_getElem? hprepared)).1
            exact fun text hmem => List.mem_singleton.1 hmem ▸ this
    | _ => exact List.subset_append_right ..
  have hanswer := answer_sound known
    (show (opened engine session.work.shared session.site).site.disk ∈ _ from hdisk) hopened
    (call.alone session.prepared) halone
  calc (session.answer call).1
      = reckoned engine shared session call :=
        (answer_sound known hdisk hsession call (List.subset_append_right ..)).1
    _ = reckoned engine shared (opened engine session.work.shared session.site)
          (call.alone session.prepared) := (reckoned_alone engine shared session call).symm
    _ = _ := hanswer.1.symm

/-- A component is rendered, edited and rendered again; templates are known by their digests. -/
theorem answer_eq_opened_edited :
    let disk : Disk := { files := [(["t", "card.html"], ⟨some "one", 1⟩)], directories := [["t"]] }
    let engine := Engine.ofSettings
      { ({} : Settings).withTemplateRoot "/t" with cache := { literalKey := 0 } }
    let site : Site := ⟨⟨fun _ _ => none, fun _ _ => false, fun _ _ => none⟩, disk, 0⟩
    let call := Call.renderFile "card" {} false
    let session := (opened engine {} site).after
      [.write ["t", "card.html"] ⟨some "two", 2⟩, .call call]
    (session.answer call).1 =
      ((opened engine session.work.shared session.site).answer call).1 := by
  intro disk engine site call
  refine answer_eq_opened engine {} site _ call ⟨fun state hstate => ?_, trivial⟩ ?_
  · have hstate : state = disk := by
      rcases List.mem_cons.1 hstate with rfl | hstate
      · rfl
      · exact List.mem_singleton.1 hstate
    rw [hstate]
    decide
  · decide +kernel

end Session

end Stencil
