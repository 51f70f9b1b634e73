import Stencil.Proofs.Markup.Nodes
import Stencil.Proofs.Rendering.Entrances
import Stencil.Proofs.Rendering.Output
import Stencil.Proofs.Resolution.Events

/-!
Where the expressions of a render come from. The sources of a node are those of its fields that hold
expressions. A step draws from sources if every expression that it hands over is a stretch of one of
them, or of a source of a tree that the loader returned meanwhile. The known sources grow when a tree is
loaded, and by nothing else: no value and no output becomes one.
-/

namespace Stencil

open Markup

/-- The fields of a parameter that are read when it is resolved. -/
def Markup.Parameter.sources (parameter : Parameter) : List String :=
  parameter.value :: parameter.default.toList

/-- The fields of a node that hold expressions, as they are written. -/
def Markup.Node.sources : Node → List String
  | .interpolation expression => [expression]
  | .conditional branches _ => branches.map Prod.fst
  | .loop _ collection _ => [collection]
  | .component head _ _ =>
      head.component :: (head.name.toList ++ head.oldName.toList ++
        head.parameters.flatMap Parameter.sources)
  | .layout name _ => [name]
  | .call _ parameters => parameters.flatMap Parameter.sources
  | _ => []

/-- The sources of all nodes of a tree. -/
def Markup.Tree.sources (tree : Tree) : List String := (preorder tree.children).flatMap Node.sources

/-- The sources of all nodes in a list and below it are among some texts. -/
def Markup.SourcesIn (known : List String) (nodes : List Node) : Prop :=
  ∀ node ∈ preorder nodes, node.sources ⊆ known

/-- The tree that a loader answers with, if it does. -/
def Loader.found : Except Fault (Option Tree) → List Tree
  | .ok (some tree) => [tree]
  | _ => []

variable {σ α β : Type}

/-- Loading one path after another leads a loader from one state to another, and it returns these
trees on the way. -/
inductive Loader.Gives (loader : Loader σ) (start : σ) : List Tree → σ → Prop where
  | nothing : Gives loader start [] start
  | load {trees : List Tree} {state : σ} (path : String) : Gives loader start trees state →
      Gives loader start (trees ++ Loader.found (loader.load path state).1)
        (loader.load path state).2

theorem Loader.Gives.trans {loader : Loader σ} {start middle last : σ} {first second : List Tree}
    (h : loader.Gives start first middle) (h' : loader.Gives middle second last) :
    loader.Gives start (first ++ second) last := by
  induction h' with
  | nothing =>
      rw [List.append_nil]
      exact h
  | load path _ ih =>
      rw [← List.append_assoc]
      exact .load path ih

namespace Markup

variable {known : List String}

theorem sourcesIn_cons {node : Node} {rest : List Node} :
    SourcesIn known (node :: rest) ↔ SourcesIn known [node] ∧ SourcesIn known rest :=
  throughout_cons

theorem SourcesIn.mono {more : List String} {nodes : List Node} (h : SourcesIn known nodes)
    (hsub : known ⊆ more) : SourcesIn more nodes :=
  fun node hmem => List.Subset.trans (h node hmem) hsub

theorem SourcesIn.own {node : Node} (h : SourcesIn known [node]) : node.sources ⊆ known :=
  Throughout.own h

theorem SourcesIn.inside {node : Node} (h : SourcesIn known [node]) :
    ∀ inner ∈ node.inside, inner.sources ⊆ known :=
  Throughout.inside h

theorem sourcesIn_bodies {bodies : List (String × List Node)}
    (h : ∀ inner ∈ preorderOfBodies bodies, inner.sources ⊆ known) :
    ∀ body ∈ bodies, SourcesIn known body.2 :=
  throughout_bodies h

theorem Tree.sourcesIn (tree : Tree) : SourcesIn tree.sources tree.children :=
  fun node hmem _ hsource => List.mem_flatMap.2 ⟨node, hmem, hsource⟩

end Markup

/-- The fragments that can be called have their sources among some texts. -/
def Scope.SourcesIn (known : List String) (scope : Scope) : Prop :=
  ∀ fragment ∈ scope.fragments, Markup.SourcesIn known fragment.2

theorem Scope.sourcesIn_of {known : List String} {tree : Tree}
    (h : Markup.SourcesIn known tree.children) : (Scope.of tree).SourcesIn known :=
  Scope.throughout_of h

namespace Render

variable (renderer : Renderer σ) (known : List String) (scope : Scope)

/-- A step whose expressions are stretches of known sources, or of sources of the trees that it
loads, and which evaluates them behind the gate alone. -/
def Draws (step : Render σ α) : Prop :=
  ∀ frame : Frame σ, ∃ trees events,
    renderer.loader.Gives frame.loaded trees (step scope frame).2.loaded ∧
    (step scope frame).2.memory.trail = events ++ frame.memory.trail ∧
    Trail.IsGuarded renderer.security events ∧
    Trail.IsFrom (known ++ trees.flatMap Tree.sources) events

variable {renderer known scope}

/-- A step that loads nothing and leaves events that say nothing of expressions. -/
theorem draws_of_silent {step : Render σ α}
    (h : ∀ frame, (step scope frame).2.loaded = frame.loaded ∧
      ∃ events, Trail.IsSilent events ∧
        (step scope frame).2.memory.trail = events ++ frame.memory.trail) :
    Draws renderer known scope step := by
  intro frame
  obtain ⟨hloaded, events, hsilent, htrail⟩ := h frame
  refine ⟨[], events, ?_, htrail, hsilent.isGuarded, hsilent.isFrom⟩
  rw [hloaded]
  exact .nothing

theorem isSilent_nil : Trail.IsSilent [] := fun _ hmem => absurd hmem List.not_mem_nil

theorem draws_pure (value : α) : Draws renderer known scope (pure value : Render σ α) :=
  draws_of_silent fun _ => ⟨rfl, [], isSilent_nil, rfl⟩

theorem draws_throw (fault : Fault) : Draws renderer known scope (throw fault : Render σ α) :=
  draws_of_silent fun _ => ⟨rfl, [], isSilent_nil, rfl⟩

theorem draws_get : Draws renderer known scope (get : Render σ (Frame σ)) :=
  draws_of_silent fun _ => ⟨rfl, [], isSilent_nil, rfl⟩

theorem draws_modify {f : Frame σ → Frame σ}
    (h : ∀ frame, (f frame).loaded = frame.loaded ∧ (f frame).memory = frame.memory) :
    Draws renderer known scope (modify f : Render σ PUnit) :=
  draws_of_silent fun frame =>
    ⟨(h frame).1, [], isSilent_nil, congrArg Memory.trail (h frame).2⟩

theorem draws_note {event : Event} (h : event.isEvaluation = false ∧ event.expression? = none) :
    Draws renderer known scope (note event : Render σ Unit) :=
  draws_of_silent fun _ => ⟨rfl, [event], fun _ hmem => List.mem_singleton.1 hmem ▸ h, rfl⟩

theorem draws_liftExcept (result : Except Fault α) :
    Draws renderer known scope (liftExcept result : Render σ α) := by
  cases result with
  | error fault => exact draws_throw fault
  | ok value => exact draws_pure value

/-- What is known later can be used as well. -/
theorem Draws.mono {step : Render σ α} {more : List String} (h : Draws renderer known scope step)
    (hsub : known ⊆ more) : Draws renderer more scope step := by
  intro frame
  obtain ⟨trees, events, hgives, htrail, hguarded, hfrom⟩ := h frame
  exact ⟨trees, events, hgives, htrail, hguarded,
    hfrom.mono (List.append_subset.2
      ⟨List.subset_append_of_subset_left _ hsub, List.subset_append_right ..⟩)⟩

/-- Two stretches of a render, the second of which may know what the first one loaded. -/
theorem Draws.join {first second last : Frame σ} {trees later : List Tree} {events after : Trail}
    (hgives : renderer.loader.Gives first.loaded trees second.loaded)
    (htrail : second.memory.trail = events ++ first.memory.trail)
    (hguarded : Trail.IsGuarded renderer.security events)
    (hfrom : Trail.IsFrom (known ++ trees.flatMap Tree.sources) events)
    (hgives' : renderer.loader.Gives second.loaded later last.loaded)
    (htrail' : last.memory.trail = after ++ second.memory.trail)
    (hguarded' : Trail.IsGuarded renderer.security after)
    (hfrom' : Trail.IsFrom ((known ++ trees.flatMap Tree.sources) ++ later.flatMap Tree.sources)
      after) :
    ∃ trees events, renderer.loader.Gives first.loaded trees last.loaded ∧
      last.memory.trail = events ++ first.memory.trail ∧
      Trail.IsGuarded renderer.security events ∧
      Trail.IsFrom (known ++ trees.flatMap Tree.sources) events := by
  refine ⟨trees ++ later, after ++ events, hgives.trans hgives', ?_, hguarded'.append hguarded, ?_⟩
  · rw [htrail', htrail, List.append_assoc]
  · rw [List.flatMap_append, ← List.append_assoc]
    exact hfrom'.append (hfrom.mono (List.subset_append_left ..))

theorem Draws.bind {step : Render σ α} {next : α → Render σ β} (h : Draws renderer known scope step)
    (hnext : ∀ value, Draws renderer known scope (next value)) :
    Draws renderer known scope (step >>= next) := by
  intro frame
  obtain ⟨trees, events, hgives, htrail, hguarded, hfrom⟩ := h frame
  rw [bind_run]
  rcases hrun : step scope frame with ⟨fault | value, after⟩
  · rw [hrun] at hgives htrail
    exact ⟨trees, events, hgives, htrail, hguarded, hfrom⟩
  · rw [hrun] at hgives htrail
    obtain ⟨later, following, hgives', htrail', hguarded', hfrom'⟩ :=
      (hnext value).mono (List.subset_append_left known (trees.flatMap Tree.sources)) after
    exact Draws.join hgives htrail hguarded hfrom hgives' htrail' hguarded' hfrom'

theorem Draws.bind_read {next : Scope → Render σ β} (h : Draws renderer known scope (next scope)) :
    Draws renderer known scope (read >>= next) := h

/-- A tree that is loaded is known from then on. -/
theorem Draws.bind_load {path : String} {next : Option Tree → Render σ β}
    (h : ∀ found : Option Tree,
      Draws renderer (known ++ found.toList.flatMap Tree.sources) scope (next found)) :
    Draws renderer known scope (load renderer path >>= next) := by
  intro frame
  rw [bind_run]
  have hnothing : renderer.loader.Gives frame.loaded [] frame.loaded := .nothing
  have hgives := Loader.Gives.load path hnothing
  have hrun : load renderer path scope frame = ((renderer.loader.load path frame.loaded).1,
      { frame with loaded := (renderer.loader.load path frame.loaded).2 }) := rfl
  rw [hrun]
  cases hfound : (renderer.loader.load path frame.loaded).1 with
  | error fault => exact ⟨_, [], hgives, rfl, isSilent_nil.isGuarded, isSilent_nil.isFrom⟩
  | ok found =>
      have htrees : [] ++ Loader.found (renderer.loader.load path frame.loaded).1 = found.toList := by
        rw [hfound]
        cases found <;> rfl
      rw [htrees] at hgives
      obtain ⟨later, following, hgives', htrail', hguarded', hfrom'⟩ := h found
        { frame with loaded := (renderer.loader.load path frame.loaded).2 }
      exact @Draws.join σ renderer known frame
        { frame with loaded := (renderer.loader.load path frame.loaded).2 } _ _ _ _ _ hgives rfl isSilent_nil.isGuarded isSilent_nil.isFrom hgives' htrail' hguarded' hfrom'

theorem draws_resolving {resolution : Resolver → Resolving α}
    (h : ∀ resolver : Resolver, resolver.Asks known (resolution resolver)) :
    Draws renderer known scope (resolving renderer resolution) := by
  intro frame
  obtain ⟨events, htrail, hguarded, hfrom⟩ := h ⟨renderer.security, renderer.host,
    renderer.ownFilters, renderer.sharedFilters, frame.vars⟩ frame.memory
  exact ⟨[], events, .nothing, htrail, hguarded, hfrom.mono (List.subset_append_left ..)⟩

theorem Draws.keeping {restore : Frame σ → Frame σ → Frame σ} {step : Render σ α}
    (h : Draws renderer known scope step)
    (hrestore : ∀ before after, (restore before after).loaded = after.loaded ∧
      ∃ events, Trail.IsSilent events ∧
        (restore before after).memory.trail = events ++ after.memory.trail) :
    Draws renderer known scope (keeping restore step) := by
  intro frame
  obtain ⟨trees, events, hgives, htrail, hguarded, hfrom⟩ := h frame
  obtain ⟨hloaded, later, hsilent, hlater⟩ := hrestore frame (step scope frame).2
  refine ⟨trees, later ++ events, ?_, ?_, hsilent.isGuarded.append hguarded,
    hsilent.isFrom.append hfrom⟩
  · rw [← hloaded] at hgives
    exact hgives
  · rw [htrail, ← List.append_assoc] at hlater
    exact hlater

theorem Draws.inside {scope' : Scope} {vars : Variables} {step : Render σ α}
    (h : Draws renderer known scope' step) : Draws renderer known scope (inside scope' vars step) := by
  intro frame
  obtain ⟨trees, events, hgives, htrail, hrest⟩ := h { frame with vars, sections := none }
  exact ⟨trees, events, hgives, htrail, hrest⟩

theorem Draws.mapM {step : α → Render σ β} {list : List α}
    (h : ∀ x ∈ list, Draws renderer known scope (step x)) :
    Draws renderer known scope (list.mapM step) := by
  induction list with
  | nil => exact draws_pure []
  | cons x rest ih =>
      rw [List.mapM_cons]
      refine (h x (List.mem_cons_self ..)).bind fun first => ?_
      exact (ih fun y hy => h y (List.mem_cons_of_mem _ hy)).bind fun others => draws_pure _

theorem Draws.catching {step : Render σ α} {handler : Fault → Render σ α}
    (h : Draws renderer known scope step)
    (hhandler : ∀ fault, Draws renderer known scope (handler fault)) :
    Draws renderer known scope (tryCatch step handler) := by
  intro frame
  obtain ⟨trees, events, hgives, htrail, hguarded, hfrom⟩ := h frame
  rw [tryCatch_run]
  rcases hrun : step scope frame with ⟨fault | value, after⟩
  · rw [hrun] at hgives htrail
    obtain ⟨later, following, hgives', htrail', hguarded', hfrom'⟩ :=
      (hhandler fault).mono (List.subset_append_left known (trees.flatMap Tree.sources)) after
    exact Draws.join hgives htrail hguarded hfrom hgives' htrail' hguarded' hfrom'
  · rw [hrun] at hgives htrail
    exact ⟨trees, events, hgives, htrail, hguarded, hfrom⟩

section Parts

theorem draws_resolve {expression : String} (h : expression ∈ known) :
    Draws renderer known scope (resolve renderer expression) :=
  draws_resolving fun _ => Resolver.asks_resolve h List.infix_rfl

theorem draws_interpolate {text : String} (h : text ∈ known) :
    Draws renderer known scope (interpolate renderer text) :=
  draws_resolving fun _ => Resolver.asks_interpolate h

/-- The name of a container opens no interpolation. -/
theorem not_brace_mem_lowercase (tag : Tag) : '{' ∉ (Text.lowercase tag.name ++ "/").toList := by
  cases tag <;> decide +kernel

theorem draws_path {head : ComponentHead} (h : head.component ∈ known) :
    Draws renderer known scope (interpolate renderer head.path) := by
  unfold ComponentHead.path
  cases head.kind with
  | direct => exact draws_interpolate h
  | container tag =>
      exact draws_resolving fun _ => Resolver.asks_interpolate_behind h (not_brace_mem_lowercase tag)

theorem draws_optionMapM {text : Option String} (h : text.toList ⊆ known) :
    Draws renderer known scope (text.mapM (interpolate renderer)) := by
  cases text with
  | none => exact draws_pure _
  | some text => exact (draws_interpolate (h (List.mem_singleton_self text))).bind fun _ => draws_pure _

theorem draws_interpolation {expression : String} (h : expression ∈ known) :
    Draws renderer known scope (interpolation renderer expression) := by
  refine (draws_resolve h).bind fun value => ?_
  cases value with
  | none => exact draws_pure _
  | some value => exact draws_pure _

theorem draws_conditional {otherwise : Render σ String}
    (hotherwise : Draws renderer known scope otherwise) {branches : List (String × Render σ String)}
    (h : ∀ branch ∈ branches, branch.1 ∈ known ∧ Draws renderer known scope branch.2) :
    Draws renderer known scope (conditional renderer otherwise branches) := by
  induction branches with
  | nil => exact hotherwise
  | cons branch rest ih =>
      obtain ⟨hcondition, hbody⟩ := h branch (List.mem_cons_self ..)
      refine (draws_liftExcept _).bind fun _ => (draws_resolve hcondition).bind fun value => ?_
      split
      · exact hbody
      · exact ih fun other hmem => h other (List.mem_cons_of_mem _ hmem)

theorem draws_startIteration : Draws renderer known scope (startIteration renderer) := by
  refine draws_get.bind fun frame => ?_
  dsimp only
  split
  · exact draws_throw _
  · exact Draws.bind (draws_modify fun _ => ⟨rfl, rfl⟩) fun _ => draws_note ⟨rfl, rfl⟩

theorem draws_loop (item : String) {collection : String} (h : collection ∈ known)
    {body : Render σ String} (hbody : Draws renderer known scope body) :
    Draws renderer known scope (loop renderer item collection body) := by
  refine (draws_resolve h).bind fun value => ?_
  split
  · exact draws_pure _
  next elements _ =>
    refine Draws.keeping ?_ fun before after =>
      ⟨rfl, [_], fun event hmem => List.mem_singleton.1 hmem ▸ ⟨rfl, rfl⟩, rfl⟩
    refine (draws_note ⟨rfl, rfl⟩).bind fun _ => ?_
    refine Draws.bind (Draws.mapM fun element _ => ?_) fun _ => draws_pure _
    exact draws_startIteration.bind fun _ =>
      Draws.bind (draws_modify fun _ => ⟨rfl, rfl⟩) fun _ => hbody

theorem draws_parameterValues {parameters : List Parameter}
    (h : parameters.flatMap Parameter.sources ⊆ known) :
    Draws renderer known scope (parameterValues renderer parameters) := by
  refine Draws.mapM fun parameter hmem => Draws.bind (draws_resolving fun _ => ?_) fun _ => draws_pure _
  have hsources : parameter.sources ⊆ known :=
    fun source hsource => h (List.mem_flatMap.2 ⟨parameter, hmem, hsource⟩)
  refine Resolver.asks_parameterValue (hsources (List.mem_cons_self ..)) fun default hdefault => ?_
  exact hsources (List.mem_cons_of_mem _ (Option.mem_toList.2 hdefault))

theorem draws_call (hscope : scope.SourcesIn known) {enter : Option (List Node → Render σ String)}
    (henter : ∀ way ∈ enter, ∀ nodes, SourcesIn known nodes → Draws renderer known scope (way nodes))
    (name : String) {parameters : List Parameter}
    (h : parameters.flatMap Parameter.sources ⊆ known) :
    Draws renderer known scope (call renderer enter name parameters) := by
  refine Draws.bind_read ?_
  split
  · exact draws_pure _
  next body hbody =>
    split
    · exact draws_throw _
    next way =>
      refine Draws.keeping ?_ fun before after =>
        ⟨rfl, [_], fun event hmem => List.mem_singleton.1 hmem ▸ ⟨rfl, rfl⟩, rfl⟩
      refine Draws.bind (draws_modify fun _ => ⟨rfl, rfl⟩) fun _ => draws_get.bind fun frame => ?_
      refine (draws_note ⟨rfl, rfl⟩).bind fun _ => (draws_parameterValues h).bind fun values => ?_
      refine Draws.bind (draws_modify fun _ => ⟨rfl, rfl⟩) fun _ => ?_
      exact henter way rfl body (hscope _ (mem_of_lookup hbody))

theorem Draws.keeping_frame {restore : Frame σ → Frame σ → Frame σ} {step : Render σ α}
    (h : Draws renderer known scope step)
    (hrestore : ∀ before after, (restore before after).loaded = after.loaded ∧
      (restore before after).memory = after.memory) :
    Draws renderer known scope (Render.keeping restore step) :=
  h.keeping fun before after =>
    ⟨(hrestore before after).1, [], isSilent_nil, congrArg Memory.trail (hrestore before after).2⟩

theorem draws_collecting {step : Render σ String} (h : Draws renderer known scope step) :
    Draws renderer known scope (collecting step) := by
  refine Draws.keeping_frame ?_ fun before after => ⟨rfl, rfl⟩
  refine Draws.bind (draws_modify fun _ => ⟨rfl, rfl⟩) fun _ => h.bind fun body => ?_
  exact draws_get.bind fun frame => draws_pure _

theorem draws_sectionContent (name : String) {content : Render σ String}
    (h : Draws renderer known scope content) :
    Draws renderer known scope (sectionContent name content) := by
  refine draws_get.bind fun frame => ?_
  split
  · exact h
  · refine h.bind fun rendered => ?_
    exact Draws.bind (draws_modify fun _ => ⟨rfl, rfl⟩) fun _ => draws_pure _

theorem draws_sectionPlace (name : String) (required : Bool) {default : Render σ String}
    (h : Draws renderer known scope default) :
    Draws renderer known scope (sectionPlace name required default) := by
  refine Draws.bind_read ?_
  split
  · exact draws_pure _
  · split
    · exact draws_pure _
    · exact h

theorem draws_slotPlace (name : String) {default : Render σ String}
    (h : Draws renderer known scope default) :
    Draws renderer known scope (slotPlace name default) := by
  refine Draws.bind_read ?_
  split
  · exact draws_pure _
  · exact h

/-- Every way into a tree draws from what is known where it is entered. -/
def TreesDraw (renderer : Renderer σ) (enter : Option (Tree → Render σ String)) : Prop :=
  ∀ way ∈ enter, ∀ known (tree : Tree) (scope : Scope), SourcesIn known tree.children →
    scope.SourcesIn known → Draws renderer known scope (way tree)

/-- A tree that was loaded draws from its own sources. -/
theorem draws_inside {enter : Option (Tree → Render σ String)} (henter : TreesDraw renderer enter)
    {way : Tree → Render σ String} (hway : way ∈ enter) (tree : Tree) {scope' : Scope}
    (vars : Variables) (hfragments : scope'.fragments = (Scope.of tree).fragments) :
    Draws renderer (known ++ [tree].flatMap Tree.sources) scope (inside scope' vars (way tree)) := by
  have hsub : tree.sources ⊆ known ++ [tree].flatMap Tree.sources := by
    rw [List.flatMap_singleton]
    exact List.subset_append_right ..
  have hchildren := tree.sourcesIn.mono hsub
  refine Draws.inside (henter way hway _ tree scope' hchildren ?_)
  unfold Scope.SourcesIn
  rw [hfragments]
  exact Scope.sourcesIn_of hchildren

theorem draws_layout {enter : Option (Tree → Render σ String)} (henter : TreesDraw renderer enter)
    {name : String} (hname : name ∈ known) {children : Render σ String}
    (h : Draws renderer known scope children) :
    Draws renderer known scope (layout renderer enter name children) := by
  refine (draws_interpolate hname).bind fun name => (draws_collecting h).bind fun result => ?_
  obtain ⟨body, sections⟩ := result
  dsimp only
  split
  · exact draws_pure _
  next name' _ =>
    refine Draws.bind_load fun found => ?_
    split
    · exact draws_pure _
    next tree =>
      split
      · exact draws_pure _
      next way =>
        exact draws_get.bind fun frame => draws_inside henter rfl tree frame.vars (by rfl)

theorem draws_announce (descriptor : Descriptor) :
    Draws renderer known scope (announce renderer descriptor) := by
  unfold announce
  split
  · exact draws_pure _
  · exact draws_of_silent fun frame =>
      ⟨rfl, [_], fun event hmem => List.mem_singleton.1 hmem ▸ ⟨rfl, rfl⟩, rfl⟩

theorem draws_slotContents {slots : List (String × Render σ String)}
    (h : ∀ slot ∈ slots, Draws renderer known scope slot.2) :
    Draws renderer known scope (slotContents slots) := by
  unfold slotContents
  have step (slot) (hslot : slot ∈ slots) : Draws renderer known scope (do
      let rendered ← slot.2
      return (Text.lowercase slot.1, rendered)) :=
    (h slot hslot).bind fun rendered => draws_pure _
  exact (Draws.mapM step).bind fun contents => draws_pure _

theorem draws_inclusion {enter : Option (Tree → Render σ String)} (henter : TreesDraw renderer enter)
    {way : Tree → Render σ String} (hway : way ∈ enter) {head : ComponentHead}
    (hhead : head.component :: (head.name.toList ++ head.oldName.toList ++
      head.parameters.flatMap Parameter.sources) ⊆ known)
    {slots : List (String × Render σ String)}
    (h : ∀ slot ∈ slots, Draws renderer known scope slot.2) :
    Draws renderer known scope (inclusion renderer way head slots) := by
  obtain ⟨hpath, hrest⟩ := List.cons_subset.1 hhead
  obtain ⟨hnames, hparameters⟩ := List.append_subset.1 hrest
  obtain ⟨hname, holdName⟩ := List.append_subset.1 hnames
  refine Draws.keeping_frame ?_ fun before after => ⟨rfl, rfl⟩
  refine (draws_path hpath).bind fun path => (draws_optionMapM hname).bind fun name => ?_
  refine (draws_optionMapM holdName).bind fun oldName => (draws_announce _).bind fun changed => ?_
  refine Draws.bind_load fun found => ?_
  split
  · exact draws_pure _
  next tree =>
    have hsub : known ⊆ known ++ [tree].flatMap Tree.sources := List.subset_append_left ..
    have hresolved : (head.parameters.filter fun p => !changed.contains p.name).flatMap
        Parameter.sources ⊆ known := by
      intro source hsource
      obtain ⟨parameter, hmem, hsource⟩ := List.mem_flatMap.1 hsource
      exact hparameters (List.mem_flatMap.2 ⟨parameter, (List.mem_filter.1 hmem).1, hsource⟩)
    refine ((draws_parameterValues hresolved).mono hsub).bind fun values => ?_
    refine draws_get.bind fun frame => ((draws_slotContents h).mono hsub).bind fun contents => ?_
    exact (draws_inside henter hway tree _ (by rfl)).bind fun output => draws_pure _

theorem draws_component {enter : Option (Tree → Render σ String)} (henter : TreesDraw renderer enter)
    {head : ComponentHead}
    (hhead : head.component :: (head.name.toList ++ head.oldName.toList ++
      head.parameters.flatMap Parameter.sources) ⊆ known)
    {slots : List (String × Render σ String)}
    (h : ∀ slot ∈ slots, Draws renderer known scope slot.2) :
    Draws renderer known scope (component renderer enter head slots) := by
  unfold component
  split
  · exact draws_pure _
  next way => exact (draws_inclusion henter rfl hhead h).catching fun fault => draws_pure _

end Parts

/-- Every way into a body or a tree draws from what is known where it is entered. -/
structure Entrances.Draw (renderer : Renderer σ) (entrances : Entrances σ) : Prop where
  body : ∀ way ∈ entrances.body, ∀ known (scope : Scope) (nodes : List Node),
    scope.SourcesIn known → SourcesIn known nodes → Draws renderer known scope (way nodes)
  tree : TreesDraw renderer entrances.tree

/-- Nodes draw from their sources: one case for each kind of node. -/
theorem draws_nodes {entrances : Entrances σ} (draw : entrances.Draw renderer)
    (hscope : scope.SourcesIn known) :
    (∀ node, SourcesIn known [node] → Draws renderer known scope (ofNode renderer entrances node)) ∧
    (∀ bodies : List (String × List Node), (∀ body ∈ bodies, SourcesIn known body.2) →
      ∀ step ∈ ofBodies renderer entrances bodies,
        step.1 ∈ bodies.map Prod.fst ∧ Draws renderer known scope step.2) ∧
    (∀ nodes, SourcesIn known nodes →
      Draws renderer known scope (ofNodes renderer entrances nodes)) := by
  apply ofNode.mutual_induct
  · intro source h
    exact draws_pure _
  · intro expression h
    exact draws_interpolation (h.own (List.mem_cons_self ..))
  · intro tag attributes children ih h
    exact ih h.inside
  · intro branches ih h
    refine draws_conditional (draws_pure _) fun branch hmem => ?_
    obtain ⟨hcondition, hbody⟩ := ih (sourcesIn_bodies h.inside) branch hmem
    exact ⟨h.own hcondition, hbody⟩
  · intro branches otherwise hotherwise hbranches h
    have hinside := h.inside
    simp only [Node.inside, List.mem_append, or_imp, forall_and] at hinside
    refine draws_conditional (hotherwise hinside.2) fun branch hmem => ?_
    obtain ⟨hcondition, hbody⟩ := hbranches (sourcesIn_bodies hinside.1) branch hmem
    exact ⟨h.own hcondition, hbody⟩
  · intro item collection children ih h
    exact draws_loop item (h.own (List.mem_cons_self ..)) (ih h.inside)
  · intro head defaultSlot slots hdefault hslots h
    have hinside := h.inside
    simp only [Node.inside, List.mem_append, or_imp, forall_and] at hinside
    refine draws_component draw.tree h.own fun slot hmem => ?_
    rcases List.mem_append.1 hmem with hmem | hmem
    · split at hmem
      · exact absurd hmem List.not_mem_nil
      · rw [List.mem_singleton.1 hmem]
        exact hdefault hinside.1
    · exact (hslots (sourcesIn_bodies hinside.2) slot hmem).2
  · intro name children ih h
    exact draws_layout draw.tree (h.own (List.mem_cons_self ..)) (ih h.inside)
  · intro name children ih h
    exact draws_sectionContent name (ih h.inside)
  · intro name required default ih h
    exact draws_sectionPlace name required (ih h.inside)
  · intro h
    exact Draws.bind_read (draws_pure _)
  · intro name default ih h
    exact draws_slotPlace name (ih h.inside)
  · intro name body h
    exact draws_pure _
  · intro name parameters h
    exact draws_call hscope (fun way hway nodes => draw.body way hway known scope nodes hscope) name
      h.own
  -- lists of nodes
  · intro h
    exact draws_pure _
  · intro node rest hnode hrest h
    obtain ⟨hfirst, hothers⟩ := sourcesIn_cons.1 h
    exact (hnode hfirst).bind fun first => (hrest hothers).bind fun others => draws_pure _
  -- lists of bodies
  · intro h step hmem
    exact absurd hmem List.not_mem_nil
  · intro name body rest hbody hrest h step hmem
    rcases List.mem_cons.1 hmem with rfl | hmem
    · exact ⟨List.mem_cons_self .., hbody (h _ (List.mem_cons_self ..))⟩
    · obtain ⟨hname, hstep⟩ := hrest (fun other hother => h other (List.mem_cons_of_mem _ hother)) step
        hmem
      exact ⟨List.mem_cons_of_mem _ hname, hstep⟩

theorem draw_entrancesLeft (inclusions calls : Nat) :
    (entrancesLeft renderer inclusions calls).Draw renderer := by
  refine @entrancesLeft_induction σ σ renderer renderer (fun entrances _ => entrances.Draw renderer)
    (fun hbody htree => ?_) inclusions calls
  constructor
  · intro way hway known scope nodes hscope hnodes
    cases hbody with
    | none => cases hway
    | some draw =>
        obtain rfl := Option.some.inj hway
        exact (draws_nodes draw hscope).2.2 nodes hnodes
  · intro way hway known tree scope htree' hscope
    cases htree with
    | none => cases hway
    | some draw =>
        obtain rfl := Option.some.inj hway
        exact (draws_nodes draw hscope).2.2 tree.children htree'

end Render

end Stencil

/-!
Values are never read as templates. Whatever variables, filters, hooks and loaders put into a render,
the expressions that are resolved stand in the page or in a tree that was loaded for it, in a field that
holds expressions; text nodes, values and outputs are no such fields, however many braces they have. And
what is evaluated is the expression handed over last, once the gate let it through.
-/

namespace Stencil.Render

open Markup

variable {σ : Type}

/-- Every expression of a render is a stretch of a field of a node of the page, or of a tree that the
loader returned on the way to its last state; no step of an evaluation is made but behind an expression
that is not empty and that the gate accepted. -/
theorem expressions_of_templates (renderer : Renderer σ) (page : Tree) (vars store : Variables)
    (memory : Memory) (loaded : σ) :
    ∃ trees events,
      renderer.loader.Gives loaded trees (run renderer page vars store memory loaded).loaded ∧
      (run renderer page vars store memory loaded).memory.trail = events ++ memory.trail ∧
      (∀ text, Event.expression text ∈ events →
        ∃ tree ∈ page :: trees, ∃ node ∈ preorder tree.children, ∃ field ∈ node.sources,
          ∃ given, given <:+: field.toList ∧ text = String.ofList (Text.trim given)) ∧
      (∀ later event earlier, events = later ++ event :: earlier → event.isEvaluation = true →
        ∃ text, Trail.latest? earlier = some text ∧ text ≠ "" ∧
          Gate.checkExpression renderer.security text = .ok ()) := by
  have draw : (entrancesLeft renderer renderer.security.limits.includeDepth
      renderer.security.limits.recursionDepth).Draw renderer := draw_entrancesLeft ..
  have hscope : (Scope.of page).SourcesIn page.sources := Scope.sourcesIn_of page.sourcesIn
  have hpage := (draws_nodes draw hscope).2.2 page.children page.sourcesIn
  obtain ⟨trees, events, hgives, htrail, hguarded, hfrom⟩ := hpage { vars, store, memory, loaded }
  refine ⟨trees, events, hgives, htrail, fun text hmem => ?_, hguarded⟩
  obtain ⟨source, hsource, hgiven⟩ := hfrom text hmem
  rw [← List.flatMap_cons, List.mem_flatMap] at hsource
  obtain ⟨tree, htree, hsource⟩ := hsource
  obtain ⟨node, hnode, hfield⟩ := List.mem_flatMap.1 hsource
  exact ⟨tree, htree, node, hnode, source, hfield, hgiven⟩

end Stencil.Render
