import Stencil.Proofs.LayeredScopes
import Stencil.Proofs.Markup.Parts

/-!
The contents of slots in the template of a component. Texts that are joined render as they do apart, so the
default slot renders what is written for it; and a slot that alone has its key is found under it, with all that
was rendered for it.
-/

namespace Stencil.Render

open Markup

variable {σ : Type}

section Joining

variable (renderer : Renderer σ) (entrances : Entrances σ)

theorem ofNodes_addNode (node : Node) (children : List Node) :
    ofNodes renderer entrances (addNode node children).reverse =
      ofNodes renderer entrances (children.reverse ++ [node]) := by
  fun_cases addNode node children with
  | case1 new old rest =>
      rw [List.reverse_cons, List.reverse_cons, List.append_assoc, ofNodes_append, ofNodes_append]
      simp only [List.singleton_append, ofNodes, ofNode, pure_bind, String.append_empty]
  | case2 => rw [List.reverse_cons]

theorem ofNodes_pushAll (nodes children : List Node) :
    ofNodes renderer entrances (pushAll nodes children).reverse =
      ofNodes renderer entrances (children.reverse ++ nodes) := by
  induction nodes generalizing children with
  | nil =>
      rw [List.append_nil]
      rfl
  | cons node rest ih =>
      change ofNodes renderer entrances (pushAll rest (addNode node children)).reverse = _
      rw [ih, ofNodes_append, ofNodes_addNode, ← ofNodes_append, List.append_assoc]
      rfl

/-- Bodies one after another give their outputs one after another. -/
theorem exists_outputs {bodies : List (List Node)} {scope : Scope} {start last : Frame σ} {text : String}
    (h : ofNodes renderer entrances bodies.flatten scope start = (.ok text, last)) :
    ∃ texts, bodies.mapM (ofNodes renderer entrances) scope start = (.ok texts, last) ∧
      text = String.join texts := by
  induction bodies generalizing start text with
  | nil =>
      cases h
      exact ⟨[], rfl, rfl⟩
  | cons body rest ih =>
      rw [List.flatten_cons, ofNodes_append_run] at h
      rcases hbody : ofNodes renderer entrances body scope start with ⟨fault | first, middle⟩
      · rw [hbody] at h
        cases h
      · rw [hbody] at h
        dsimp only at h
        rcases hrest : ofNodes renderer entrances rest.flatten scope middle with ⟨fault | others, after⟩
        · rw [hrest] at h
          cases h
        · rw [hrest] at h
          cases h
          obtain ⟨texts, htexts, rfl⟩ := ih hrest
          refine ⟨first :: texts, ?_, ?_⟩
          · rw [List.mapM_cons, bind_run, hbody]
            dsimp only
            rw [bind_run, htexts]
            rfl
          · simp

end Joining

section Contents

variable {scope : Scope} {frame after : Frame σ} {contents : List (String × String)}

theorem slotContents_append (earlier later : List (String × Render σ String)) :
    slotContents (earlier ++ later) = do
      let before ← slotContents earlier
      let more ← slotContents later
      return more ++ before := by
  unfold slotContents
  simp only [List.mapM_append, bind_assoc, pure_bind, List.reverse_append]

theorem slotContents_cons (slot : String × Render σ String) (later : List (String × Render σ String)) :
    slotContents (slot :: later) = do
      let content ← slot.2
      let more ← slotContents later
      return more ++ [(Text.lowercase slot.1, content)] := by
  unfold slotContents
  simp only [List.mapM_cons, bind_assoc, pure_bind, List.reverse_cons]

/-- The contents of slots have the keys of the slots, the last one first. -/
theorem keys_slotContents {slots : List (String × Render σ String)}
    (h : slotContents slots scope frame = (.ok contents, after)) :
    contents.map Prod.fst = (slots.map fun slot => Text.lowercase slot.1).reverse := by
  induction slots generalizing frame contents with
  | nil =>
      cases h
      rfl
  | cons slot later ih =>
      rw [slotContents_cons, bind_run] at h
      rcases hslot : slot.2 scope frame with ⟨fault | content, middle⟩
      · rw [hslot] at h
        cases h
      · rw [hslot] at h
        dsimp only at h
        rw [bind_run] at h
        rcases hmore : slotContents later scope middle with ⟨fault | more, last⟩
        · rw [hmore] at h
          cases h
        · rw [hmore] at h
          cases h
          rw [List.map_append, ih hmore]
          exact List.reverse_cons.symm

/-- A slot is rendered from where those before it end, and its contents are found under its key if none behind it
has the same. -/
theorem lookup_slotContents {earlier later : List (String × Render σ String)} {slot : String × Render σ String}
    (h : slotContents (earlier ++ slot :: later) scope frame = (.ok contents, after))
    (hlater : ∀ other ∈ later, Text.lowercase other.1 ≠ Text.lowercase slot.1) :
    ∃ before start content last, slotContents earlier scope frame = (.ok before, start) ∧
      slot.2 scope start = (.ok content, last) ∧ contents.lookup (Text.lowercase slot.1) = some content := by
  rw [slotContents_append, bind_run] at h
  rcases hearlier : slotContents earlier scope frame with ⟨fault | before, start⟩
  · rw [hearlier] at h
    cases h
  · rw [hearlier] at h
    dsimp only at h
    rw [slotContents_cons, bind_assoc, bind_run] at h
    rcases hslot : slot.2 scope start with ⟨fault | content, last⟩
    · rw [hslot] at h
      cases h
    · rw [hslot] at h
      simp only [bind_assoc, pure_bind] at h
      rw [bind_run] at h
      rcases hmore : slotContents later scope last with ⟨fault | more, final⟩
      · rw [hmore] at h
        cases h
      · rw [hmore] at h
        cases h
        refine ⟨before, start, content, last, rfl, hslot, ?_⟩
        refine List.lookup_eq_some_iff.2 ⟨more, before, ?_, fun entry hentry => bne_iff_ne.2 fun heq => ?_⟩
        · rw [List.append_assoc]
          rfl
        · have hkey : entry.1 ∈ more.map Prod.fst := List.mem_map_of_mem hentry
          rw [keys_slotContents hmore, List.mem_reverse] at hkey
          obtain ⟨other, hother, hname⟩ := List.mem_map.1 hkey
          exact hlater other hother (hname.trans heq.symm)

end Contents

section Places

variable {name content : String} {own : Scope}

theorem read_bind_run {α : Type} (next : Scope → Render σ α) : (read >>= next) own = next own own := rfl

theorem slotPlace_found (h : own.slots.lookup (Text.lowercase name) = some content) (default : Render σ String)
    (frame : Frame σ) : slotPlace name default own frame = (.ok content, frame) := by
  unfold slotPlace
  rw [read_bind_run, h]
  rfl

theorem slotPlace_missing (h : own.slots.lookup (Text.lowercase name) = none) (default : Render σ String) :
    slotPlace name default own = default own := by
  unfold slotPlace
  rw [read_bind_run, h]

theorem sectionPlace_found (h : own.sections.lookup (Text.lowercase name) = some content) (required : Bool)
    (default : Render σ String) (frame : Frame σ) :
    sectionPlace name required default own frame = (.ok content, frame) := by
  unfold sectionPlace
  rw [read_bind_run, h]
  rfl

theorem sectionPlace_missing (h : own.sections.lookup (Text.lowercase name) = none) (required : Bool)
    (default : Render σ String) (frame : Frame σ) :
    sectionPlace name required default own frame =
      if required then (.ok (diagnostic ("missing required section `" ++ name ++ "`")), frame)
      else default own frame := by
  unfold sectionPlace
  rw [read_bind_run, h]
  cases required with
  | true => rfl
  | false => rfl

end Places

end Stencil.Render
