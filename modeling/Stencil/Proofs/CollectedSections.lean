import Stencil.Proofs.Rendering.Component
import Stencil.Proofs.Rendering.Output
import Stencil.Proofs.Rendering.Telling

/-!
Sections belong to the layout whose children they stand among. In the template of a layout the place of a section
shows the first section of its name that was finished among the children, and the place of the body shows what the
children gave beside their sections. Another layout among the children collects for itself: the sections around
it are behind it as they were before, also where it fails in a component that contains the failure.
-/

namespace Stencil.Markup

mutual

/-- The sections below a node that belong to the layout around it, with their children. Those below another
layout belong to that one, and a fragment renders nothing by itself. -/
def Node.ownSections : Node → List (String × List Node)
  | .container _ _ children => ownSections children
  | .conditional branches none => ownSectionsOfBodies branches
  | .conditional branches (some otherwise) => ownSectionsOfBodies branches ++ ownSections otherwise
  | .loop _ _ children => ownSections children
  | .component _ defaultSlot slots => ownSections defaultSlot ++ ownSectionsOfBodies slots
  | .sectionContent name children => (name, children) :: ownSections children
  | .sectionPlace _ _ default => ownSections default
  | .slotPlace _ default => ownSections default
  | .text _ | .interpolation _ | .layout _ _ | .bodyPlace | .fragment _ _ | .call _ _ => []

def ownSections : List Node → List (String × List Node)
  | [] => []
  | node :: rest => node.ownSections ++ ownSections rest

def ownSectionsOfBodies : List (String × List Node) → List (String × List Node)
  | [] => []
  | (_, body) :: rest => ownSections body ++ ownSectionsOfBodies rest

end

end Stencil.Markup

namespace Stencil.Render

open Markup Account

variable {σ α : Type}

section Sources

variable {source : String → String → Prop} {scope : Scope} {account next : Account σ}

/-- Every section that is finished has one of the names with one of the contents. -/
def Account.From (source : String → String → Prop) (scope : Scope) (account : Account σ) : Prop :=
  ∀ frame, ∀ entry ∈ finished (account scope frame), source entry.1 entry.2

theorem from_nothing : (nothing : Account σ).From source scope :=
  fun _ _ hmem => absurd hmem List.not_mem_nil

theorem from_whole (step : Render σ String) : (whole step).From source scope := by
  intro frame entry hmem
  rw [finished_whole] at hmem
  exact absurd hmem List.not_mem_nil

theorem Account.From.behind {step : Render σ α} {next : α → Account σ}
    (h : ∀ value, (next value).From source scope) : (behind step next).From source scope := by
  intro frame
  rcases hrun : step scope frame with ⟨fault | value, after⟩
  · rw [behind_of_error hrun]
    exact fun _ hmem => absurd hmem List.not_mem_nil
  · rw [behind_of_ok hrun]
    exact h value after

theorem Account.From.append (h : account.From source scope) (hnext : next.From source scope) :
    Account.From source scope fun scope frame => account scope frame ++ next scope frame := by
  intro frame entry hmem
  rw [finished_append, List.mem_append] at hmem
  exact hmem.elim (h frame entry) (hnext frame entry)

theorem Account.From.followed (h : account.From source scope) (step : Render σ α)
    (hnext : next.From source scope) : (followed account step next).From source scope :=
  h.append (Account.From.behind fun _ => hnext)

theorem Account.From.sectionsOnly (h : account.From source scope) : account.sectionsOnly.From source scope := by
  intro frame
  rw [finished_sectionsOnly]
  exact h frame

theorem from_ofSection (name : String) {content : Render σ String} (h : account.From source scope)
    (hcontent : ∀ frame output after, content scope frame = (.ok output, after) →
      source (Text.lowercase name) output) : (ofSection name content account).From source scope := by
  refine h.sectionsOnly.append fun frame => ?_
  rcases hrun : content scope frame with ⟨fault | output, after⟩
  · rw [behind_of_error hrun]
    exact fun _ hmem => absurd hmem List.not_mem_nil
  · rw [behind_of_ok hrun]
    intro entry hmem
    obtain rfl : entry = (Text.lowercase name, output) := List.mem_singleton.1 hmem
    exact hcontent frame output after hrun

theorem from_ofPlace (filled : Scope → Bool) (place : Render σ String) (h : account.From source scope) :
    (ofPlace filled place account).From source scope := by
  intro frame
  unfold ofPlace
  split
  · exact from_whole place frame
  · exact h frame

variable (renderer : Renderer σ)

theorem from_ofLoop (item collection : String) (body : Render σ String) (h : account.From source scope) :
    (ofLoop renderer item collection body account).From source scope := by
  have hiterations (elements : List Value) :
      (ofIterations renderer item body account elements).From source scope := by
    induction elements with
    | nil => exact from_nothing
    | cons element rest ih => exact Account.From.behind fun _ => h.followed body ih
  refine Account.From.behind fun value => ?_
  split
  · exact from_nothing
  next elements _ => exact Account.From.behind fun _ => hiterations elements

theorem from_ofComponent (enter : Option (Tree → Render σ String)) (head : ComponentHead)
    (slots : List (String × Render σ String)) (h : account.From source scope) :
    (ofComponent renderer enter head slots account).From source scope := by
  refine Account.From.append ?_ (from_whole _)
  cases enter with
  | none => exact from_nothing
  | some enter =>
      refine Account.From.sectionsOnly (Account.From.behind fun found => ?_)
      split
      · exact h
      · exact from_nothing

theorem from_ofCall (enter : Option (List Node → Render σ String)) {bodies : Option (List Node → Account σ)}
    (h : ∀ account ∈ bodies, ∀ fragment ∈ scope.fragments, (account fragment.2).From source scope)
    (name : String) (parameters : List Parameter) :
    (ofCall renderer enter bodies name parameters).From source scope := by
  intro frame
  unfold ofCall
  split
  next body account hlookup =>
    exact Account.From.behind (fun _ => h account rfl _ (mem_of_lookup hlookup)) frame
  next => exact from_whole _ frame

/-- What is finished while nodes render are sections of their own, or sections in the fragments that they call. -/
theorem from_nodes {entrances : Entrances σ} {bodies : Option (List Node → Account σ)}
    (hbodies : ∀ account ∈ bodies, ∀ fragment ∈ scope.fragments, (account fragment.2).From source scope) :
    let Given (own : String × List Node) : Prop := ∀ frame output after,
      ofNodes renderer entrances own.2 scope frame = (.ok output, after) → source (Text.lowercase own.1) output
    (∀ node : Node, (∀ own ∈ node.ownSections, Given own) →
      (accountOf renderer entrances bodies node).From source scope) ∧
    (∀ named, (∀ own ∈ ownSectionsOfBodies named, Given own) →
      (∀ otherwise : Account σ, otherwise.From source scope →
        (accountOfArms renderer entrances bodies otherwise named).From source scope) ∧
      (accountOfSlots renderer entrances bodies named).From source scope) ∧
    (∀ nodes, (∀ own ∈ ownSections nodes, Given own) →
      (accountOfNodes renderer entrances bodies nodes).From source scope) := by
  intro Given
  apply ofNode.mutual_induct
  · intro source _
    exact from_whole _
  · intro expression _
    exact from_whole _
  · intro tag attributes children ih h
    exact ih h
  · intro branches ih h
    exact (ih h).1 nothing from_nothing
  · intro branches otherwise hotherwise hbranches h
    obtain ⟨hfirst, hlast⟩ := List.forall_mem_append.1 h
    exact (hbranches hfirst).1 _ (hotherwise hlast)
  · intro item collection children ih h
    exact from_ofLoop renderer item collection _ (ih h)
  · intro head defaultSlot slots hdefault hslots h
    obtain ⟨hfirst, hlast⟩ := List.forall_mem_append.1 h
    exact from_ofComponent renderer _ head _ ((hdefault hfirst).followed _ (hslots hlast).2)
  · intro name children _ _
    exact from_whole _
  · intro name children ih h
    obtain ⟨hown, hinner⟩ := List.forall_mem_cons.1 h
    exact from_ofSection name (ih hinner) hown
  · intro name required default ih h
    exact from_ofPlace _ _ (ih h)
  · intro _
    exact from_whole _
  · intro name default ih h
    exact from_ofPlace _ _ (ih h)
  · intro name body _
    exact from_nothing
  · intro name parameters _
    exact from_ofCall renderer _ hbodies name parameters
  -- lists of nodes
  · intro _
    exact from_nothing
  · intro node rest hnode hrest h
    obtain ⟨hfirst, hothers⟩ := List.forall_mem_append.1 h
    exact (hnode hfirst).followed _ (hrest hothers)
  -- lists of bodies
  · intro _
    exact ⟨fun _ h => h, from_nothing⟩
  · intro name body rest hbody hrest h
    obtain ⟨hfirst, hothers⟩ := List.forall_mem_append.1 h
    refine ⟨fun otherwise hotherwise => Account.From.behind fun holds => ?_,
      (hbody hfirst).followed _ (hrest hothers).2⟩
    split
    · exact hbody hfirst
    · exact (hrest hothers).1 otherwise hotherwise

end Sources

/-- A section of this name and content was rendered from one of these bodies, with so many inclusions left. -/
def RenderedFrom (renderer : Renderer σ) (inclusions : Nat) (scope : Scope) (bodies : List (String × List Node))
    (name content : String) : Prop :=
  ∃ body ∈ bodies, Text.lowercase body.1 = name ∧ ∃ calls start last,
    ofNodes renderer (entrancesLeft renderer inclusions calls) body.2 scope start = (.ok content, last)

/-- The sections that count for the layout around nodes: their own, and those in the fragments that can be
called. -/
def countingSections (scope : Scope) (nodes : List Node) : List (String × List Node) :=
  ownSections nodes ++ scope.fragments.flatMap fun fragment => ownSections fragment.2

theorem from_account (renderer : Renderer σ) (inclusions calls : Nat) (scope : Scope) {nodes : List Node}
    {bodies : List (String × List Node)} (h : countingSections scope nodes ⊆ bodies) :
    (account renderer inclusions calls nodes).From (RenderedFrom renderer inclusions scope bodies) scope := by
  obtain ⟨hown, hfragments⟩ := List.append_subset.1 h
  have hgiven (left : Nat) (body) (hmem : body ∈ ownSections nodes) (frame : Frame σ) (output after)
      (hrun : ofNodes renderer (entrancesLeft renderer inclusions left) body.2 scope frame = (.ok output, after)) :
      RenderedFrom renderer inclusions scope bodies (Text.lowercase body.1) output :=
    ⟨body, hown hmem, rfl, left, frame, after, hrun⟩
  induction calls generalizing nodes with
  | zero =>
      have hunopened : ∀ account ∈ bodyAccounts renderer inclusions 0, ∀ fragment ∈ scope.fragments,
          (account fragment.2).From (RenderedFrom renderer inclusions scope bodies) scope :=
        fun account hnone => absurd hnone (Option.not_mem_none account)
      exact (from_nodes renderer hunopened).2.2 nodes (hgiven 0)
  | succ calls ih =>
      refine (from_nodes renderer fun account haccount fragment hfragment => ?_).2.2 nodes (hgiven (calls + 1))
      obtain rfl := Option.some.inj haccount
      have hbody : ownSections fragment.2 ⊆ bodies :=
        fun own hmem => hfragments (List.mem_flatMap.2 ⟨fragment, hfragment, hmem⟩)
      refine ih (List.append_subset.2 ⟨hbody, hfragments⟩) hbody fun left body hmem frame output after hrun => ?_
      exact ⟨body, hbody hmem, rfl, left, frame, after, hrun⟩

/-- In a template the places of sections and of the body show what was given for it. -/
structure Shows (renderer : Renderer σ) (own : Scope) (products : List Product) : Prop where
  found : ∀ entrances name required default content frame,
    (finished products).lookup (Text.lowercase name) = some content →
    ofNode renderer entrances (.sectionPlace name required default) own frame = (.ok content, frame)
  missing : ∀ entrances name required default frame,
    (finished products).lookup (Text.lowercase name) = none →
    ofNode renderer entrances (.sectionPlace name required default) own frame =
      if required then (.ok (diagnostic ("missing required section `" ++ name ++ "`")), frame)
      else ofNodes renderer entrances default own frame
  body : ∀ entrances frame, ofNode renderer entrances .bodyPlace own frame = (.ok (remaining products), frame)

theorem shows_gathered (renderer : Renderer σ) {own : Scope} {products : List Product}
    (hsections : own.sections = gathered (finished products) []) (hbody : own.body = some (remaining products)) :
    Shows renderer own products := by
  have hlookup (key : String) : own.sections.lookup key = (finished products).lookup key := by
    rw [hsections, lookup_gathered]
    rfl
  constructor
  · intro entrances name required default content frame hfound
    rw [ofNode]
    exact sectionPlace_found ((hlookup _).trans hfound) required _ frame
  · intro entrances name required default frame hmissing
    rw [ofNode]
    exact sectionPlace_missing ((hlookup _).trans hmissing) required _ frame
  · intro entrances frame
    rw [ofNode, bodyPlace, read_bind_run, hbody]
    rfl

/-- A layout whose children give an output and whose template is found. -/
theorem layout_run {renderer : Renderer σ} {name path body : String}
    {children : Render σ String} {scope : Scope} {frame named after loaded : Frame σ} {tree : Tree}
    (hname : interpolate renderer name scope frame = (.ok path, named)) (hpath : path ≠ "")
    (hchildren : children scope { named with sections := some [] } = (.ok body, after))
    (hload : load renderer path scope { after with sections := named.sections } = (.ok (some tree), loaded))
    (enter : Tree → Render σ String) :
    layout renderer (some enter) name children scope frame =
      inside { Scope.of tree with sections := after.sections.getD [], body := some body } loaded.vars
        (enter tree) scope loaded := by
  have hcollected : collecting children scope named =
      (.ok (body, after.sections.getD []), { after with sections := named.sections }) := by
    have hrest : (children >>= fun body => do return (body, (← get).sections.getD []) :
        Render σ (String × List (String × String))) scope { named with sections := some [] } =
          (.ok (body, after.sections.getD []), after) := by
      rw [bind_run, hchildren]
      rfl
    exact congrArg (fun result => (result.1, { result.2 with sections := named.sections })) hrest
  have hnonempty : path.isEmpty = false := Bool.eq_false_iff.2 fun hempty => hpath (String.isEmpty_iff.1 hempty)
  unfold layout
  rw [bind_run, hname]
  dsimp only
  rw [bind_run, hcollected, hnonempty, if_neg Bool.false_ne_true]
  dsimp only
  rw [bind_run, hload]
  rfl

/-- Sections are collected for each layout by itself. However nodes end, they add to the sections around them
those that they finish, each under a name that is not there yet, and these are sections that count for the layout
around. A layout among them leaves the sections around it as they are, whatever becomes of it. Where a
layout finds its template, the template shows the section that was finished first under each name, and what
the children gave beside their sections. -/
theorem collects_own_sections (renderer : Renderer σ) (inclusions calls : Nat) (scope : Scope) :
    let entrances := entrancesLeft renderer inclusions calls
    let given := account renderer inclusions calls
    (∀ nodes (frame : Frame σ),
      (ofNodes renderer entrances nodes scope frame).2.sections =
          frame.sections.map (gathered (finished (given nodes scope frame))) ∧
        ∀ entry ∈ finished (given nodes scope frame),
          RenderedFrom renderer inclusions scope (countingSections scope nodes) entry.1 entry.2) ∧
    (∀ name children (frame : Frame σ),
      (ofNode renderer entrances (.layout name children) scope frame).2.sections = frame.sections) ∧
    ∀ left name path children body tree (frame named after loaded : Frame σ), inclusions = left + 1 →
      interpolate renderer name scope frame = (.ok path, named) → path ≠ "" →
      ofNodes renderer entrances children scope { named with sections := some [] } = (.ok body, after) →
      load renderer path scope { after with sections := named.sections } = (.ok (some tree), loaded) →
      let products := given children scope { named with sections := some [] }
      let own : Scope :=
        { Scope.of tree with sections := gathered (finished products) [], body := some (remaining products) }
      ofNode renderer entrances (.layout name children) scope frame =
          inside own loaded.vars (ofNodes renderer (entrancesLeft renderer left calls) tree.children) scope
            loaded ∧
        Shows renderer own products := by
  intro entrances given
  refine ⟨fun nodes frame => ⟨?_, ?_⟩, fun name children frame => ?_, ?_⟩
  · exact (tells_account renderer inclusions calls nodes scope frame).1
  · exact from_account renderer inclusions calls scope (List.Subset.refl _) frame
  · rw [ofNode]
    exact (silent_layout renderer entrances.tree name _).sections frame
  · rintro left name path children body tree frame named after loaded rfl hname hpath hchildren hload products
    intro own
    obtain ⟨hleft, hshown⟩ :=
      tells_account renderer (left + 1) calls children scope { named with sections := some [] }
    rw [hchildren] at hleft hshown
    have hsections : after.sections = some (gathered (finished products) []) := hleft
    have hbody : body = remaining products := hshown body rfl rfl
    have hrun := layout_run hname hpath hchildren hload fun tree =>
      ofNodes renderer (entrancesLeft renderer left calls) tree.children
    rw [hsections, hbody, ← tree_entrancesLeft_succ] at hrun
    refine ⟨?_, shows_gathered renderer rfl rfl⟩
    rw [ofNode]
    exact hrun

section Panels

/-- A template that places a section and the body. -/
def panel : Tree := Tree.ofNodes [.sectionPlace "S" false [.text "none"], .text "|", .bodyPlace]

/-- A renderer that finds this template under every path. -/
def panelled : Renderer Unit := { callless with loader := ⟨fun _ => return some panel⟩ }

/-- A section, another layout with a section of the same name, and a component with one in its slot. -/
def panelChildren : List Node :=
  [.sectionContent "s" [.text "first"], .layout "m" [.sectionContent "s" [.text "inner"], .text "x"],
    .component card [.sectionContent "S" [.text "second"]] []]

theorem interpolate_layoutName : interpolate panelled "m" = pure "m" :=
  interpolate_of_unopened (by decide)

theorem interpolate_cardPath : interpolate panelled "card" = pure "card" :=
  interpolate_of_unopened (by decide)

theorem ofNodes_panelChildren :
    ofNodes panelled (entrancesLeft panelled 1 0) panelChildren {} collectingFrame =
      (.ok "inner|xnone|", { collectingFrame with sections := some [("s", "first")] }) := by
  simp only [panelChildren, ofNodes, ofNode, tree_entrancesLeft_succ, layout, interpolate_layoutName, component,
    inclusion, card, ComponentHead.path, interpolate_cardPath, pure_bind, Option.mapM_none]
  rfl

theorem account_panelChildren :
    account panelled 1 0 panelChildren {} collectingFrame =
      [.finished "s" "first", .text "inner|x", .finished "s" "second", .text "none|"] := by
  let entrances := entrancesLeft panelled 1 0
  let bodies := bodyAccounts panelled 1 0
  let framed : Frame Unit := { collectingFrame with sections := some [("s", "first")] }
  have hsection : ofNode panelled entrances (.sectionContent "s" [.text "first"]) {} collectingFrame =
      (.ok "", framed) := by
    simp only [ofNode, ofNodes]
    rfl
  have hlayout : ofNode panelled entrances (.layout "m" [.sectionContent "s" [.text "inner"], .text "x"]) {}
      framed = (.ok "inner|x", framed) := by
    simp only [entrances, ofNode, ofNodes, layout, tree_entrancesLeft_succ, interpolate_layoutName, pure_bind]
    rfl
  have hcard : component panelled entrances.tree card
      (slotSteps panelled entrances [.sectionContent "S" [.text "second"]] []) {} framed =
        (.ok "none|", framed) := by
    simp only [entrances, slotSteps, ofNode, ofNodes, ofBodies, component, inclusion, tree_entrancesLeft_succ, card,
      ComponentHead.path, interpolate_cardPath, pure_bind, Option.mapM_none]
    rfl
  have hprepared : ∃ found, prepared panelled card {} framed = (.ok (some found), framed) := by
    unfold prepared
    simp only [card, ComponentHead.path, interpolate_cardPath, pure_bind, Option.mapM_none]
    exact ⟨_, rfl⟩
  have hfirst : accountOf panelled entrances bodies (.sectionContent "s" [.text "first"]) {} collectingFrame =
      [.finished "s" "first"] := by
    simp only [accountOf, accountOfNodes, ofNodes, ofNode]
    rfl
  have hsecond : accountOf panelled entrances bodies (.layout "m" [.sectionContent "s" [.text "inner"], .text "x"])
      {} framed = [.text "inner|x"] := by
    rw [ofNode] at hlayout
    rw [accountOf, whole, behind_of_ok hlayout]
  have hthird : accountOf panelled entrances bodies
      (.component card [.sectionContent "S" [.text "second"]] []) {} framed =
        [.finished "s" "second", .text "none|"] := by
    obtain ⟨found, hfound⟩ := hprepared
    rw [accountOf]
    unfold ofComponent
    rw [whole, behind_of_ok hcard, show entrances.tree = _ from tree_entrancesLeft_succ panelled 0 0]
    dsimp only
    rw [sectionsOnly, behind_of_ok hfound]
    simp only [accountOf, accountOfNodes, accountOfSlots, ofNodes, ofNode]
    rfl
  change followed (accountOf panelled entrances bodies _) _ (followed (accountOf panelled entrances bodies _) _
    (followed (accountOf panelled entrances bodies _) _ nothing)) {} collectingFrame = _
  rw [followed, hfirst, behind_of_ok hsection, followed, hsecond, behind_of_ok hlayout, followed, hthird,
    ofNode_component, behind_of_ok hcard]
  rfl

/-- The first section is shown, and beside it what is left of the three. What the layout around had collected is
there afterwards. -/
theorem collects_own_sections_panel :
    let products : List Product := [.finished "s" "first", .text "inner|x", .finished "s" "second", .text "none|"]
    let own : Scope :=
      { Scope.of panel with sections := gathered (finished products) [], body := some (remaining products) }
    let around : Frame Unit := { collectingFrame with sections := some [("s", "around")] }
    ofNode panelled (entrancesLeft panelled 1 0) (.layout "m" panelChildren) {} around =
        (.ok "first|inner|xnone|", around) ∧
      Shows panelled own products := by
  intro products own around
  obtain ⟨-, -, hfilled⟩ := collects_own_sections panelled 1 0 {}
  obtain ⟨hrun, hshows⟩ := hfilled 0 "m" "m" panelChildren "inner|xnone|" panel around around
    { collectingFrame with sections := some [("s", "first")] } around rfl
    (congrFun (congrFun interpolate_layoutName {}) around) (by decide) ofNodes_panelChildren rfl
  let given := account panelled 1 0 panelChildren {} collectingFrame
  let shown (products : List Product) : Scope :=
    { Scope.of panel with sections := gathered (finished products) [], body := some (remaining products) }
  change ofNode _ _ _ _ _ = inside (shown given) _ _ _ _ at hrun
  change Shows panelled (shown given) given at hshows
  have hgiven : given = products := account_panelChildren
  rw [hgiven] at hrun hshows
  exact ⟨hrun.trans rfl, hshows⟩

end Panels

end Stencil.Render
