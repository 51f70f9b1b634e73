import Stencil.Proofs.Caching.Shelf
import Stencil.Proofs.EncodedOutput
import Stencil.Proofs.Json.Values
import Stencil.Proofs.Rendering.Alike

/-!
Stores with one fingerprint render alike. The fingerprint is a digest of the bindings as JSON text, and JSON
tells values apart as long as no host object is in them and no number that is not finite: a store without
such values is told by its fingerprint up to the spelling of names, which no render can see. An infinity
looks like null in JSON but not in output.
-/

namespace Stencil

open Markup

namespace Variables

/-- No host object is bound, and no number that is not finite. -/
def Plain (vars : Variables) : Prop := ∀ binding ∈ vars.bindings, binding.value.isPlain = true

instance (vars : Variables) : Decidable vars.Plain :=
  inferInstanceAs (Decidable (∀ binding ∈ vars.bindings, binding.value.isPlain = true))

/-- The text that is digested for a fingerprint. -/
def serialized (vars : Variables) : String := (Value.map vars.sorted).json

variable {vars other : Variables}

theorem mem_sorted {key : String} {value : Value} :
    (key, value) ∈ vars.sorted ↔ ∃ b ∈ vars.bindings, b.key = key ∧ b.value = value := by
  unfold sorted
  rw [List.mem_map]
  simp only [(List.mergeSort_perm vars.bindings _).mem_iff, Prod.mk.injEq]

/-- Folded stores with the same keys and values match. -/
theorem matches_of_sorted (distinct : vars.Distinct) (distinct' : other.Distinct) (folded : vars.Folded)
    (folded' : other.Folded) (h : vars.sorted = other.sorted) : vars.Matches other := by
  have hcounterpart {vars other : Variables} (distinct' : other.Distinct)
      (h : vars.sorted = other.sorted) (b : Binding) (hb : b ∈ vars.bindings) :
      ∃ b', other.find? b.key = some b' ∧ b'.value = b.value := by
    have hmem : (b.key, b.value) ∈ other.sorted := h ▸ mem_sorted.2 ⟨b, hb, rfl, rfl⟩
    obtain ⟨b', hb', hkey, hvalue⟩ := mem_sorted.1 hmem
    exact ⟨b', (find?_eq_some_iff distinct').2 ⟨hb', hkey⟩, hvalue⟩
  exact matches_of_counterparts distinct distinct' folded folded' (hcounterpart distinct' h)
    (hcounterpart distinct h.symm)

/-- Plain stores are told by the texts that are digested. -/
theorem matches_of_serialized {layers layers' : List Variables}
    (folded : ∀ layer ∈ layers ++ layers', layer.Folded)
    (plain : ∀ layer ∈ layers ++ layers', layer.Plain)
    (h : (layered layers).serialized = (layered layers').serialized) :
    (layered layers).Matches (layered layers') := by
  have hfolded (stores : List Variables) (hsub : stores ⊆ layers ++ layers') :
      (layered stores).Folded :=
    every_layered fun layer hlayer => folded layer (hsub hlayer)
  have hplain (stores : List Variables) (hsub : stores ⊆ layers ++ layers') :
      (Value.map (layered stores).sorted).isPlain = true := by
    have hlayered : (layered stores).Plain :=
      every_layered fun layer hlayer => plain layer (hsub hlayer)
    unfold Value.isPlain
    refine Value.entriesPlain_iff.2 fun entry hentry => ?_
    obtain ⟨b, hb, -, hvalue⟩ := mem_sorted.1 hentry
    exact hvalue ▸ hlayered b hb
  have hmap := Value.json_injective (hplain layers (List.subset_append_left ..))
    (hplain layers' (List.subset_append_right ..)) h
  exact matches_of_sorted (distinct_layered _) (distinct_layered _)
    (hfolded layers (List.subset_append_left ..)) (hfolded layers' (List.subset_append_right ..))
    (Value.map.inj hmap)

end Variables

namespace Render

variable {σ : Type} (renderer : Renderer σ)

variable {vars vars' : Variables}

/-- Stores that match render every tree alike. -/
theorem run_matching (h : vars.Matches vars') (tree : Tree) (store : Variables) (memory : Memory)
    (loaded : σ) :
    (run renderer tree vars store memory loaded).output =
        (run renderer tree vars' store memory loaded).output ∧
      (run renderer tree vars store memory loaded).memory.decisions =
        (run renderer tree vars' store memory loaded).memory.decisions := by
  have holds : (ofStores .same (· = ·)).Holds renderer renderer := by
    refine holds_ofStores renderer Resolver.Accord.lasting_same ?_
    rintro path state _ rfl
    exact ⟨rfl, rfl⟩
  obtain ⟨houtput, -, hdecisions, -⟩ :=
    run_alike holds tree store memory memory h rfl (rfl : loaded = loaded) trivial trivial
  exact ⟨houtput, hdecisions⟩

/-- Stores of layers with one fingerprint render every tree to the same output, if no host object and no
number that is not finite is bound in them, and the texts that were digested have different digests unless
they are the same. -/
theorem output_eq_of_fingerprint (renderer : Renderer σ) (tree : Tree) (layers layers' : List Variables)
    (store : Variables) (memory : Memory) (loaded : σ)
    (folded : ∀ layer ∈ layers ++ layers', layer.Folded)
    (plain : ∀ layer ∈ layers ++ layers', layer.Plain)
    (digests : Template.CollisionFree
      [(Variables.layered layers).serialized, (Variables.layered layers').serialized])
    (same : (Variables.layered layers).fingerprint = (Variables.layered layers').fingerprint) :
    (run renderer tree (Variables.layered layers) store memory loaded).output =
      (run renderer tree (Variables.layered layers') store memory loaded).output := by
  have hserialized := digests _ (List.mem_cons_self ..) _
    (List.mem_cons_of_mem _ (List.mem_singleton.2 rfl)) same
  exact (run_matching renderer (Variables.matches_of_serialized folded plain hserialized) tree store
    memory loaded).1

theorem collisionFree_of_eq {text text' : String} (h : text = text') :
    Template.CollisionFree [text, text'] := by
  subst h
  intro first hfirst second hsecond _
  simp only [List.mem_cons, List.not_mem_nil, or_false, or_self] at hfirst hsecond
  rw [hfirst, hsecond]

/-- The spelling of a name and the order of the bindings do not count. -/
theorem output_eq_of_fingerprint_respelled :
    let layers := [Variables.ofList [("User", .string "u")], Variables.ofList [("count", .int 2)]]
    let layers' := [Variables.ofList [("COUNT", .int 2), ("user", .string "u")]]
    (Variables.layered layers).fingerprint = (Variables.layered layers').fingerprint ∧
      (run greeter greeting (Variables.layered layers) {} {} ()).output =
        (run greeter greeting (Variables.layered layers') {} {} ()).output := by
  intro layers layers'
  have hsorted : (Variables.layered layers).sorted = (Variables.layered layers').sorted := by
    have hbindings : (Variables.layered layers).bindings =
        [⟨"user", "User", .string "u"⟩, ⟨"count", "count", .int 2⟩] := rfl
    have hbindings' : (Variables.layered layers').bindings =
        [⟨"count", "COUNT", .int 2⟩, ⟨"user", "user", .string "u"⟩] := rfl
    unfold Variables.sorted
    rw [hbindings, hbindings', List.mergeSort, List.mergeSort]
    simp [List.MergeSort.Internal.splitInTwo]
  have hserialized : (Variables.layered layers).serialized = (Variables.layered layers').serialized :=
    congrArg (fun entries => (Value.map entries).json) hsorted
  have hsame := congrArg Digest.sha256Hex hserialized
  refine ⟨hsame, output_eq_of_fingerprint greeter greeting layers layers' {} {} () ?_ ?_ ?_ hsame⟩
  · decide +kernel
  · decide +kernel
  · exact collisionFree_of_eq hserialized

/-- The infinity of a sign. -/
def infinity (negative : Bool) : Value :=
  .float ⟨Float.ofBits (if negative then 0xFFF0000000000000 else 0x7FF0000000000000), false⟩

/-- A store with an infinity. -/
def unbounded (negative : Bool) : Variables := .ofList [("x", infinity negative)]

theorem serialized_unbounded (negative : Bool) :
    (Variables.layered [unbounded negative]).serialized = "\x7b\"x\":null\x7d" := by
  have hsorted : (Variables.layered [unbounded negative]).sorted = [("x", infinity negative)] := by
    have hbindings : (Variables.layered [unbounded negative]).bindings =
        [⟨"x", "x", infinity negative⟩] := rfl
    unfold Variables.sorted
    rw [hbindings, List.mergeSort_singleton]
    rfl
  unfold Variables.serialized
  rw [hsorted]
  cases negative with
  | false => decide +kernel
  | true => decide +kernel

theorem output_unbounded (negative : Bool) :
    (run greeter (Tree.ofNodes [.interpolation "x"]) (Variables.layered [unbounded negative]) {} {}
      ()).output = .ok (if negative then "-inf" else "inf") := by
  have accepted : Gate.checkExpression greeter.security "x" = .ok () :=
    Resolver.accepted_of_toBool (by decide +kernel)
  have hvalue (scope : Scope) (frame : Stencil.Frame Unit)
      (hvars : frame.vars = Variables.layered [unbounded negative]) :
      interpolation greeter "x" scope frame =
        (.ok (Gate.encodeOutput greeter.security.encoding (infinity negative).display),
          { frame with memory :=
            { frame.memory with trail := .lookup "x" :: .expression "x" :: frame.memory.trail } }) := by
    have hbound : Resolver.direct? ⟨greeter.security, greeter.host, greeter.ownFilters,
        greeter.sharedFilters, frame.vars⟩ "x".toList = some (infinity negative) := by
      rw [hvars]
      rfl
    exact interpolation_bound rfl rfl accepted rfl hbound rfl
  have houtput : Gate.encodeOutput greeter.security.encoding (infinity negative).display ++ "" =
      if negative then "-inf" else "inf" := by
    cases negative with
    | false => decide +kernel
    | true => decide +kernel
  unfold run ofTree
  generalize entrancesLeft greeter _ _ = entrances
  change (ofNodes greeter entrances [.interpolation "x"] _ _).1 = _
  simp only [ofNodes, ofNode, bind_run, pure_run, hvalue _ ⟨Variables.layered [unbounded negative],
    none, 0, 0, {}, {}, ()⟩ rfl]
  exact congrArg Except.ok houtput

/-- Not every two stores with one fingerprint render alike: the infinities look like null in JSON. -/
theorem not_output_eq_of_fingerprint :
    ¬ ∀ (renderer : Renderer Unit) (tree : Tree) (layers layers' : List Variables) (store : Variables)
      (memory : Memory), (∀ layer ∈ layers ++ layers', layer.Folded) →
      Template.CollisionFree
        [(Variables.layered layers).serialized, (Variables.layered layers').serialized] →
      (Variables.layered layers).fingerprint = (Variables.layered layers').fingerprint →
      (run renderer tree (Variables.layered layers) store memory ()).output =
        (run renderer tree (Variables.layered layers') store memory ()).output := by
  intro hclaim
  have hserialized : (Variables.layered [unbounded false]).serialized =
      (Variables.layered [unbounded true]).serialized :=
    (serialized_unbounded false).trans (serialized_unbounded true).symm
  have hsame := hclaim greeter (Tree.ofNodes [.interpolation "x"]) [unbounded false] [unbounded true] {}
    {} (by decide +kernel) ?_ (congrArg Digest.sha256Hex hserialized)
  · rw [output_unbounded, output_unbounded] at hsame
    exact absurd (Except.ok.inj hsame) (by decide)
  · exact collisionFree_of_eq hserialized

end Render

end Stencil
