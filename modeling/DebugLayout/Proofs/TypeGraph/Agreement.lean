import DebugLayout.Proofs.TypeGraph.Fresh

/-!
# DebugLayout — every type is built in agreement

Where no type contains itself, the building of a type of any kind agrees with itself from state to
state, provided that the types it needs are built as they would be in a fresh state. What becomes of
a type is then what would become of it in a fresh state, so that the types that need it can rely on
that in turn.

There is one lemma for each function of the building, in the order in which they call each other,
and none of them knows how the needed types are built. Composites take most of the work, as their
placeholder is in the graph while the members are built.

* `TypeGraph.Settles`, `TypeGraph.Reliable`: ways to build types as in a fresh state;
* `TypeGraph.agree_buildEntry`: the building of an entry agrees with itself;
* `TypeGraph.settles_of_needed`: a type is settled if those that it needs are.
-/

namespace DebugLayout

open Relation (ReflTransGen TransGen)

namespace TypeGraph

open Build
open BuildState (Consistent Due Faithful Learned Open Ready Run Within)

variable {store : Store} {target : Target} {root needed ref : Int} {usedBy : Option Int}
variable {recurse recurse' : Recurse} {P : BuildState → Prop} {s t : BuildState}

-- ---------------------------------------------------------------------------
-- Fresh states
-- ---------------------------------------------------------------------------

/-- Building a type in a fresh state is a run of the builder from the start. -/
theorem run_fresh (store : Store) (target : Target) (ref : Int) (usedBy : Option Int) :
    Run store ref .start (fresh store target ref usedBy).2 :=
  (runs_buildRef store target _ ref usedBy .start (idle_start store).coherent
    ((idle_start store).surrounds ref) trivial).1

/-- A fresh state has no type in the making: whatever the building of a type left behind is
complete. -/
theorem idle_fresh (store : Store) (target : Target) (ref : Int) (usedBy : Option Int) :
    Idle store (fresh store target ref usedBy).2 :=
  (idle_start store).run (run_fresh store target ref usedBy)

/-- A type whose building succeeds in a fresh state is in the graph afterwards. -/
theorem has_fresh (h : (fresh store target ref usedBy).1 = .ok ()) :
    (fresh store target ref usedBy).2.graph.has ref = true := by
  have hafter := (runs_buildRef store target (depthBound store) ref usedBy .start
    (idle_start store).coherent ((idle_start store).surrounds ref) trivial).2
  change After store (fun _ => Built ref) (fresh store target ref usedBy) at hafter
  rcases hfresh : fresh store target ref usedBy with ⟨outcome, s⟩
  rw [hfresh] at h hafter
  obtain rfl : outcome = .ok () := h
  exact hafter

/-- What is known of a type that stands is what was learned of it in a fresh state. -/
theorem within_fresh (hs : Consistent store target s) (href : s.Stands ref) :
    Within store (fresh store target ref none).2 s ∧
      (fresh store target ref none).2.graph.has ref = true := by
  obtain ⟨houtcome, hfacts⟩ := (hs.faithful ref).standing href none
  exact ⟨⟨idle_fresh store target ref none, hs.coherent, hfacts⟩, has_fresh houtcome⟩

/-- The node that a reference leads to is the one that it leads to in a fresh state. -/
theorem get_eq_fresh (hacyclic : store.Acyclic) (hs : Ready store target root s)
    (href : s.Stands ref) : s.graph.get ref = (fresh store target ref none).2.graph.get ref := by
  obtain ⟨hwithin, hhas⟩ := within_fresh hs.consistent href
  exact hwithin.get_eq hacyclic hhas

/-- What a reference stands for, its names left aside, is the same as in a fresh state. -/
theorem resolve_eq_fresh (hacyclic : store.Acyclic) (hs : Ready store target root s)
    (href : s.Stands ref) :
    s.graph.resolve ref = (fresh store target ref none).2.graph.resolve ref := by
  obtain ⟨hwithin, hhas⟩ := within_fresh hs.consistent href
  exact hwithin.resolve_eq hacyclic hhas

/-- The size of a type that stands is its size in a fresh state. -/
theorem byteSize_eq_fresh (hacyclic : store.Acyclic) (hs : Ready store target root s)
    (href : s.Stands ref) :
    s.graph.byteSize ref = (fresh store target ref none).2.graph.byteSize ref := by
  obtain ⟨hwithin, hhas⟩ := within_fresh hs.consistent href
  exact hwithin.byteSize_eq hacyclic hhas

-- ---------------------------------------------------------------------------
-- Types that are needed
-- ---------------------------------------------------------------------------

/-- Whether the building of a type has come to what it would come to in a fresh state. -/
structure ComesTo (store : Store) (target : Target) (ref : Int) (usedBy : Option Int)
    (s : BuildState) (result : Except BuildStop Unit × BuildState) : Prop where
  outcome : result.1 = (fresh store target ref usedBy).1
  facts : result.2.facts = s.facts ∪ (fresh store target ref usedBy).2.facts
  consistent : Consistent store target result.2

/-- Whether a way to build types always does so for one of them. -/
def Settles (store : Store) (target : Target) (recurse : Recurse) (ref : Int) : Prop :=
  ∀ usedBy s, Open store target ref s →
    ComesTo store target ref usedBy s ((recurse ref usedBy).exec s)

/-- Whether a way to build types does so for all that a type needs. -/
structure Reliable (store : Store) (target : Target) (root : Int) (recurse : Recurse) : Prop where
  acyclic : store.Acyclic
  builds : Builds store recurse
  settles : ∀ needed, store.Needs root needed → Settles store target recurse needed

/-- A reliable way to build types goes on with the type standing, if it goes on at all. -/
theorem Reliable.going (hrec : Reliable store target root recurse)
    (hneeds : store.Needs root needed) (usedBy : Option Int) (hs : Ready store target root s) :
    Going store target root (fun _ s => s.Stands needed) ((recurse needed usedBy).exec s).1
      ((recurse needed usedBy).exec s).2 := by
  have hopen : Open store target needed s := hs.open hneeds
  have hsurrounds : s.Surrounds store needed :=
    fun outer houter => (hopen.surrounds outer houter).to_reflTransGen
  obtain ⟨hrun, hafter⟩ := hrec.builds needed usedBy s hopen.consistent.coherent hsurrounds trivial
  obtain ⟨-, -, hconsistent⟩ := hrec.settles needed hneeds usedBy s hopen
  refine ⟨hs.after hrec.acyclic hneeds hrun hconsistent, fun a ha => ?_⟩
  rcases hexec : (recurse needed usedBy).exec s with ⟨outcome, t⟩
  rw [hexec] at ha hafter hrun
  obtain rfl : outcome = .ok a := ha
  refine BuildState.stands_of_has hafter ?_
  -- a placeholder that is left was there before, and then the root would need itself
  by_contra hplaceholder
  have hbefore := hrun.hasPlaceholder (by simpa using hplaceholder)
  exact hrec.acyclic needed (hopen.surrounds needed hbefore)

/-- Types that are needed are built in agreement. -/
theorem agrees_recurse (hrec : Reliable store target root recurse)
    (hrec' : Reliable store target root recurse') (hneeds : store.Needs root needed)
    (usedBy : Option Int) :
    Agrees store target root (fun _ => True) (recurse needed usedBy) (recurse' needed usedBy)
      (Going store target root fun _ s => s.Stands needed) := by
  intro s t hs ht _ _
  obtain ⟨hsoutcome, hsfacts, -⟩ := hrec.settles needed hneeds usedBy s (hs.open hneeds)
  obtain ⟨htoutcome, htfacts, -⟩ := hrec'.settles needed hneeds usedBy t (ht.open hneeds)
  exact
    { outcome := hsoutcome.trans htoutcome.symm
      learned := ⟨_, hsfacts, htfacts⟩
      left := hrec.going hneeds usedBy hs
      right := hrec'.going hneeds usedBy ht }

/-- The size of a type that stands is the same in all states. -/
theorem agrees_sizeSoFar (hacyclic : store.Acyclic) (hP : ∀ s, P s → s.Stands ref) :
    Agrees store target root P (sizeSoFar ref) (sizeSoFar ref)
      (Going store target root fun _ => P) := by
  have hexec : ∀ s, Ready store target root s → P s → (sizeSoFar ref).exec s =
      ((sizeKnown (fresh store target ref none).2.graph ref).mapError
        fun d => .type (.dangling d), s) := by
    intro s hs hPs
    rw [exec_sizeSoFar, sizeKnown, sizeKnown, get_eq_fresh hacyclic hs (hP s hPs),
      byteSize_eq_fresh hacyclic hs (hP s hPs)]
  exact agrees_still _ hexec hexec fun _ _ _ hs => hs

-- ---------------------------------------------------------------------------
-- The last step
-- ---------------------------------------------------------------------------

/-- An operation on the graph that always succeeds, and makes the same known of the type. -/
theorem agrees_update {operation : TypeGraph → Except ArenaFault TypeGraph} (news : Set Fact)
    (h : ∀ s, Ready store target root s → P s → ∃ g, operation s.graph = .ok g ∧
      ({ s with graph := g } : BuildState).facts = s.facts ∪ news ∧
      ({ s with graph := g } : BuildState).Tidy ∧
      ∀ ref, ref ≠ root → ({ s with graph := g } : BuildState).known ref = s.known ref) :
    Agrees store target root P (update operation) (update operation) (Ended store target root) := by
  -- all that `Ended` asks for is read off the four facts about the new graph, for either state
  have hended : ∀ s g, Ready store target root s →
      ({ s with graph := g } : BuildState).facts = s.facts ∪ news →
      ({ s with graph := g } : BuildState).Tidy →
      (∀ ref, ref ≠ root → ({ s with graph := g } : BuildState).known ref = s.known ref) →
      Ended store target root (.ok ()) { s with graph := g } := by
    intro s g hs hfacts htidy hknown
    exact
      { tidy := htidy
        faithful := fun ref href => (hs.consistent.faithful ref).of_known (hknown ref href)
          (hfacts ▸ Set.subset_union_left)
        unfailed := hs.unfailed
        unbuilt := fun _ hstop => absurd hstop (by simp) }
  intro s t hs ht hPs hPt
  obtain ⟨g, hg, hgfacts, hgtidy, hgknown⟩ := h s hs hPs
  obtain ⟨g', hg', hgfacts', hgtidy', hgknown'⟩ := h t ht hPt
  rw [exec_update, exec_update, hg, hg']
  exact
    { outcome := rfl
      learned := ⟨news, hgfacts, hgfacts'⟩
      left := hended s g hs hgfacts hgtidy hgknown
      right := hended t g' ht hgfacts' hgtidy' hgknown' }

/-- Giving the type its node ends its building alike in all states, provided that the node is no
placeholder. -/
theorem agrees_addNode {name : Option String} {body : TypeBody} (hbody : ¬ store.IsBody root)
    (hreal : body.isPlaceholder = false) :
    Agrees store target root P (update (·.addNode ⟨root, name, body⟩))
      (update (·.addNode ⟨root, name, body⟩)) (Ended store target root) := by
  refine agrees_update {.node root ⟨root, name, body⟩} fun s hs _ => ?_
  obtain ⟨haliases, hnodes⟩ := has_eq_false_iff.1 (hs.has_eq_false hbody)
  have hadd : s.graph.addNode ⟨root, name, body⟩ =
      .ok { s.graph with nodes := s.graph.nodes.insert root ⟨root, name, body⟩ } := by
    simp [addNode, isAlias, OrderedMap.contains, haliases, hnodes]
  refine ⟨_, hadd, ?_, hs.consistent.tidy.withGraph rfl rfl rfl, fun ref href => ?_⟩
  · refine @BuildState.facts_insert_node s ⟨root, name, body⟩ hreal fun old hold => ?_
    rw [hnodes] at hold
    exact absurd hold (by simp)
  · exact BuildState.known_insert_node ⟨root, name, body⟩ (Ne.symm href)

/-- Making the type a name of another ends its building alike in all states. -/
theorem agrees_addAlias {aim : Int} {name : Option String} (hbody : ¬ store.IsBody root) :
    Agrees store target root P (update (·.addAlias root aim name))
      (update (·.addAlias root aim name)) (Ended store target root) := by
  refine agrees_update (aliasFacts root aim name) fun s hs _ => ?_
  have hnew : s.graph.has root = false := hs.has_eq_false hbody
  -- only an alias has a name, and the root is none yet
  have hname : s.graph.typedefNames.get? root = none := by
    by_contra hsome
    obtain ⟨own, hown⟩ := Option.ne_none_iff_exists'.1 hsome
    have halias := hs.consistent.tidy.named root own hown
    rw [isAlias, OrderedMap.contains, (has_eq_false_iff.1 hnew).1] at halias
    exact absurd halias (by decide)
  obtain ⟨g, hg⟩ : ∃ g, s.graph.addAlias root aim name = .ok g := by
    unfold addAlias
    rw [hnew]
    exact ⟨_, rfl⟩
  exact ⟨g, hg, BuildState.facts_addAlias hg hname, hs.consistent.tidy.addAlias hg,
    fun ref href => BuildState.known_addAlias hg (Ne.symm href)⟩

/-- Filling the placeholder of a composite ends its building alike in all states. -/
theorem agrees_fillPlaceholder {name : Option String} {kind : CompositeKind} {size : Option Int}
    {members : List Member} {isClass : Bool} (hbody : store.IsBody root) :
    Agrees store target root P
      (update (·.fillPlaceholder ⟨root, name, .composite kind size members isClass⟩))
      (update (·.fillPlaceholder ⟨root, name, .composite kind size members isClass⟩))
      (Ended store target root) := by
  refine agrees_update {.node root ⟨root, name, .composite kind size members isClass⟩}
    fun s hs _ => ?_
  have hplaceholder : s.graph.hasPlaceholder root = true := hs.begun hbody
  refine ⟨_, if_pos hplaceholder, ?_, hs.consistent.tidy.withGraph rfl rfl rfl, fun ref href => ?_⟩
  · refine BuildState.facts_insert_node rfl fun old hold => ?_
    obtain ⟨found, hfound, hreal⟩ := hasPlaceholder_iff.1 hplaceholder
    obtain rfl := Option.some.inj (hfound.symm.trans hold)
    exact hreal
  · exact BuildState.known_insert_node _ (Ne.symm href)

-- ---------------------------------------------------------------------------
-- The kinds of types
-- ---------------------------------------------------------------------------

variable {e : Entry}

/-- A step in the course of which an alias is being followed. -/
theorem agrees_following {x y : Build Unit} {f : Build Unit} {R : Unit → BuildState → Prop}
    (hbody : ¬ store.IsBody root)
    (hx : Agrees store target root (fun _ => True) x y (Going store target root R))
    (hf : Agrees store target root (fun _ => True) f f (Ended store target root)) :
    Agrees store target root (fun _ => True)
      (do
        modify fun state => { state with following := state.following.insert root }
        tryFinally x (modify fun state =>
          { state with following := state.following.filter (· ≠ root) })
        f)
      (do
        modify fun state => { state with following := state.following.insert root }
        tryFinally y (modify fun state =>
          { state with following := state.following.filter (· ≠ root) })
        f) (Ended store target root) := by
  -- entering and leaving only change the aliases being followed
  have hentering : ∀ s, Ready store target root s → Ready store target root (s.entering root) :=
    fun s hs => hs.withFollowing hbody fun other hother => List.mem_insert_iff.1 hother
  have hleaving : ∀ s, Ready store target root s → Ready store target root (s.leaving root) :=
    fun s hs => hs.withFollowing hbody fun other hother => .inr (List.mem_filter.1 hother).1
  intro s t hs ht _ _
  obtain ⟨houtcome, hlearned, hleft, hright⟩ :=
    hx (s.entering root) (t.entering root) (hentering s hs) (hentering t ht) trivial trivial
  rw [exec_following root x fun _ => f, exec_following root y fun _ => f]
  rcases hxs : x.exec (s.entering root) with ⟨outcome, s'⟩
  rcases hyt : y.exec (t.entering root) with ⟨outcome', t'⟩
  -- the outcomes are the same, so that both sides go on or both stop
  rw [hxs, hyt] at houtcome hlearned
  rw [hxs] at hleft
  rw [hyt] at hright
  obtain rfl : outcome = outcome' := houtcome
  have hs' := hleaving s' hleft.1
  have ht' := hleaving t' hright.1
  cases outcome with
  | error stop => exact ⟨rfl, hlearned, Tolerant.stopped stop _ hs', Tolerant.stopped stop _ ht'⟩
  | ok a =>
    obtain ⟨houtcome', hlearned', hleft', hright'⟩ := hf _ _ hs' ht' trivial trivial
    exact ⟨houtcome', hlearned.trans hlearned', hleft', hright'⟩

/-- A qualified or renamed type is built alike in all states: all that it looks at is the type that
it names. -/
theorem agrees_buildAlias (hrec : Reliable store target e.ref recurse)
    (hrec' : Reliable store target e.ref recurse') (he : store.entry? e.ref = some e)
    (htag : e.tag.isAlias = true) (hbody : ¬ store.IsBody e.ref) :
    Agrees store target e.ref (fun _ => True) (buildAlias recurse e) (buildAlias recurse' e)
      (Ended store target e.ref) := by
  unfold buildAlias
  extract_lets name
  cases haim : e.typeRef? with
  | none => exact agrees_addNode hbody rfl
  | some aim =>
    have hneeds : store.Needs e.ref aim := .target he htag haim
    have hbuild := agrees_following hbody (agrees_recurse hrec hrec' hneeds (some e.ref))
      (@agrees_addAlias store target e.ref _ aim name hbody)
    -- no alias leads back to one that is being followed
    have hround : ∀ s, Ready store target e.ref s →
        ¬ (s.following.contains aim || decide (aim = e.ref)) = true := by
      intro s hs hround
      rcases Bool.or_eq_true_iff.1 hround with hround | hround
      · have hback := hs.following aim (by simpa using hround)
        exact hrec.acyclic e.ref (TransGen.head' hneeds hback)
      · exact hrec.acyclic e.ref (.single (of_decide_eq_true hround ▸ hneeds))
    intro s t hs ht hPs hPt
    rw [exec_bind, exec_bind]
    show Agree _ s t (exec (if _ then _ else _) s) (exec (if _ then _ else _) t)
    rw [if_neg (hround s hs), if_neg (hround t ht)]
    exact hbuild s t hs ht hPs hPt

/-- Looking through the names of a pointer's target reads the store only, and so comes out alike. -/
theorem agrees_peel (steps : Nat) (visited : List Int) (other : Entry) :
    Agrees store target root P (peel store steps visited other) (peel store steps visited other)
      (Going store target root fun _ => P) := by
  induction steps generalizing visited other with
  | zero => exact agrees_pure fun _ hs => hs
  | succ steps ih =>
    unfold peel
    split
    · exact agrees_pure fun _ hs => hs
    · split
      · exact agrees_pure fun _ hs => hs
      · split
        · exact agrees_pure fun _ hs => hs
        · exact agrees_entry.bind fun next => ih _ next

/-- A pointer is built alike in all states: what it points to is never built. -/
theorem agrees_buildPointer (hbody : ¬ store.IsBody e.ref) :
    Agrees store target e.ref (fun _ => True) (buildPointer store target e)
      (buildPointer store target e) (Ended store target e.ref) := by
  unfold buildPointer
  extract_lets size jp
  have hjp : ∀ isFunction, Agrees store target e.ref (fun _ => True) (jp isFunction) (jp isFunction)
      (Ended store target e.ref) := fun isFunction => agrees_addNode hbody rfl
  split
  · exact .andThen kept_any (agrees_pure (Q := fun _ _ => True) fun _ hs => hs) hjp
  · refine agrees_entry.bind fun pointed => (agrees_peel _ _ pointed).bind fun bare => ?_
    exact .andThen kept_any (agrees_pure (Q := fun _ _ => True) fun _ hs => hs) hjp

/-- A base type is built alike in all states from its own attributes. -/
theorem agrees_buildBaseType (hbody : ¬ store.IsBody e.ref) :
    Agrees store target e.ref (fun _ => True) (buildBaseType e) (buildBaseType e)
      (Ended store target e.ref) := by
  unfold buildBaseType
  split
  · exact agrees_throw _
  · exact (agrees_ofExcept _).bind fun encoding => agrees_addNode hbody rfl

/-- An enumeration is built alike in all states: it looks at its underlying type only. -/
theorem agrees_buildEnum (hrec : Reliable store target e.ref recurse)
    (hrec' : Reliable store target e.ref recurse') (he : store.entry? e.ref = some e)
    (htag : e.tag = Tag.enumerationType) (hbody : ¬ store.IsBody e.ref) :
    Agrees store target e.ref (fun _ => True) (buildEnum recurse e) (buildEnum recurse' e)
      (Ended store target e.ref) := by
  unfold buildEnum
  refine (agrees_ofExcept _).bind fun enumerators => ?_
  extract_lets jp
  -- what follows does not look at the state, whatever the underlying type was found to be
  have hjp : ∀ underlying, Agrees store target e.ref (fun _ => True) (jp underlying) (jp underlying)
      (Ended store target e.ref) := by
    rintro ⟨underlying, size⟩
    dsimp only [jp]
    split
    · exact agrees_throw _
    · exact (agrees_ofExcept _).bind fun type => agrees_addNode hbody rfl
  cases hunderlying : e.typeRef? with
  | none => exact .andThen kept_any (agrees_pure (Q := fun _ _ => True) fun _ hs => hs) hjp
  | some underlying =>
    have hneeds : store.Needs e.ref underlying := .underlying he htag hunderlying
    refine (agrees_recurse hrec hrec' hneeds (some e.ref)).bind fun _ => ?_
    refine .lookup _ (fun s hs => resolve_eq_fresh hrec.acyclic hs) fun node _ => ?_
    refine .andThen (kept_stands underlying)
      (agrees_pure (Q := fun _ _ => True) fun _ _ => trivial) fun a => ?_
    exact (hjp a).pre fun _ _ => trivial

/-- An array is built alike in all states: it looks at its element type only. -/
theorem agrees_buildArray (hrec : Reliable store target e.ref recurse)
    (hrec' : Reliable store target e.ref recurse') (he : store.entry? e.ref = some e)
    (htag : e.tag = Tag.arrayType) (hbody : ¬ store.IsBody e.ref) :
    Agrees store target e.ref (fun _ => True) (buildArray recurse e) (buildArray recurse' e)
      (Ended store target e.ref) := by
  unfold buildArray
  cases helement : e.typeRef? with
  | none => exact agrees_throw _
  | some element =>
    have hneeds : store.Needs e.ref element := .element he htag helement
    refine (agrees_recurse hrec hrec' hneeds (some e.ref)).bind fun _ => ?_
    refine (agrees_ofExcept _).bind fun dims => ?_
    extract_lets jp
    have hjp : ∀ explicit, Agrees store target e.ref (fun s => s.Stands element) (jp explicit)
        (jp explicit) (Ended store target e.ref) := by
      intro explicit
      -- a stride that is given is taken as it is, else the size of the elements is looked up
      cases explicit with
      | none =>
        refine (agrees_sizeSoFar hrec.acyclic fun _ hs => hs).bind fun stride => ?_
        exact agrees_addNode hbody rfl
      | some stride =>
        exact (agrees_pure (Q := fun _ s => s.Stands element) fun _ hs => hs).bind fun stride =>
          agrees_addNode hbody rfl
    split
    · exact (agrees_pure fun _ hs => hs).bind hjp
    · exact (agrees_ofExcept _).bind hjp

/-- The parameters of a function come from the store only, and so come out alike. -/
theorem agrees_parametersOf (es : List Entry) :
    Agrees store target root (fun _ => True) (parametersOf store es) (parametersOf store es)
      (Going store target root fun _ _ => True) := by
  induction es with
  | nil => exact agrees_pure fun _ hs => hs
  | cons c es ih =>
    unfold parametersOf
    split
    · split
      · exact ih
      · refine (agrees_entry.map _ kept_any).bind fun _ => ?_
        exact ih.bind fun _ => agrees_pure fun _ hs => hs
    · exact ih

/-- The type of a function is built alike in all states, since none of the types that it names is
built. -/
theorem agrees_buildSignature (hbody : ¬ store.IsBody e.ref) :
    Agrees store target e.ref (fun _ => True) (buildSignature store e) (buildSignature store e)
      (Ended store target e.ref) := by
  unfold buildSignature
  extract_lets isVariadic jp
  have hjp : ∀ u, Agrees store target e.ref (fun _ => True) (jp u) (jp u)
      (Ended store target e.ref) :=
    fun u => (agrees_parametersOf e.children).bind fun _ => agrees_addNode hbody rfl
  split
  · exact (agrees_entry.map _ kept_any).bind hjp
  · exact hjp ()

-- ---------------------------------------------------------------------------
-- Composites
-- ---------------------------------------------------------------------------

/-- Whether the types of some members stand. -/
def Stand (members : List Member) (s : BuildState) : Prop := ∀ m ∈ members, s.Stands m.typeRef

theorem kept_stand (members : List Member) : Kept (Stand members) :=
  fun _ _ hsub h m hm => (h m hm).mono hsub

/-- A member is described alike once its type stands. -/
theorem agrees_member {m : Member} {type : Int} (htype : m.typeRef = type) :
    Agrees store target root (fun s => s.Stands type) (pure (some m)) (pure (some m))
      (Going store target root fun member => Stand member.toList) :=
  agrees_pure fun s hs other hother => by
    obtain rfl := List.mem_singleton.1 hother
    exact htype ▸ hs

theorem agrees_noMember :
    Agrees store target root P (pure none) (pure none)
      (Going store target root fun member => Stand (Option.toList member)) :=
  agrees_pure fun _ _ _ hm => absurd hm (by simp)

/-- A base class becomes the same member in all states, with its type standing. -/
theorem agrees_buildBaseClass {c : Entry} (hrec : Reliable store target root recurse)
    (hrec' : Reliable store target root recurse')
    (hneeds : ∀ type, c.typeRef? = some type → store.Needs root type) :
    Agrees store target root (fun _ => True) (buildBaseClass recurse c) (buildBaseClass recurse' c)
      (Going store target root fun member => Stand member.toList) := by
  unfold buildBaseClass
  cases htype : c.typeRef? with
  | none => exact agrees_noMember
  | some type =>
    refine (agrees_recurse hrec hrec' (hneeds type htype) (some c.ref)).bind fun _ => ?_
    refine .lookup _ (fun s hs => get_eq_fresh hrec.acyclic hs) fun node _ => ?_
    split
    · exact (agrees_ofExcept _).bind fun offset => agrees_member rfl
    · exact (agrees_ofExcept _).bind fun offset => agrees_member rfl
    · exact agrees_noMember

/-- An entry of a member becomes the same member in all states, with its type standing. Nothing is
asked of the type of a declaration, which is passed over. -/
theorem agrees_buildMember {c : Entry} (hrec : Reliable store target root recurse)
    (hrec' : Reliable store target root recurse') (inUnion : Bool)
    (hneeds : ∀ type, c.isDeclaration = false → c.typeRef? = some type → store.Needs root type) :
    Agrees store target root (fun _ => True) (buildMember recurse target inUnion c)
      (buildMember recurse' target inUnion c)
      (Going store target root fun member => Stand member.toList) := by
  unfold buildMember
  cases hdeclared : c.isDeclaration with
  | true => exact agrees_noMember
  | false =>
  cases htype : c.typeRef? with
  | none => exact agrees_noMember
  | some type =>
    refine (agrees_recurse hrec hrec' (hneeds type hdeclared htype) (some c.ref)).bind fun _ => ?_
    refine (agrees_ofExcept _).bind fun offset => ?_
    extract_lets offset
    -- a member with bits, one with a name, and one without, of which only composites count
    split
    · exact agrees_noMember
    · refine (agrees_ofExcept _).bind fun size => ?_
      extract_lets size jp
      -- the storage unit comes from the entry, or else from the size of the type
      have hjp : ∀ unitSize, Agrees store target root (fun s => s.Stands type) (jp unitSize)
          (jp unitSize) (Going store target root fun member => Stand member.toList) :=
        fun unitSize => (agrees_ofExcept _).bind fun place => agrees_member rfl
      split
      · exact (agrees_pure fun _ hs => hs).bind hjp
      · exact (agrees_sizeSoFar hrec.acyclic fun _ hs => hs).bind hjp
    · exact agrees_member rfl
    · refine .lookup _ (fun s hs => get_eq_fresh hrec.acyclic hs) fun node _ => ?_
      split
      · exact agrees_member rfl
      · exact agrees_noMember

/-- The member that a child of a composite describes, if it describes one. -/
def buildPart (recurse : Recurse) (target : Target) (inUnion : Bool) (c : Entry) :
    Build (Option Member) :=
  if c.tag = Tag.member then buildMember recurse target inUnion c
  else if c.tag = Tag.inheritance then buildBaseClass recurse c
  else pure none

/-- The members of a composite come from its children one by one. -/
theorem buildMembers_cons (recurse : Recurse) (target : Target) (inUnion : Bool) (c : Entry)
    (es : List Entry) :
    buildMembers recurse target inUnion (c :: es) =
      buildPart recurse target inUnion c >>= fun member =>
        buildMembers recurse target inUnion es >>= fun members =>
          pure (member.toList ++ members) := by
  rw [buildMembers, buildPart]
  split
  · rfl
  · split <;> rfl

/-- A child of a composite adds the same member in all states, or none in all of them. -/
theorem agrees_buildPart {c : Entry} (hrec : Reliable store target root recurse)
    (hrec' : Reliable store target root recurse') (inUnion : Bool)
    (hneeds : c.IsStored → ∀ type, c.typeRef? = some type → store.Needs root type) :
    Agrees store target root (fun _ => True) (buildPart recurse target inUnion c)
      (buildPart recurse' target inUnion c)
      (Going store target root fun member => Stand member.toList) := by
  unfold buildPart
  split
  · rename_i hmember
    exact agrees_buildMember hrec hrec' inUnion fun type hstored =>
      hneeds (.inl ⟨hmember, hstored⟩) type
  · split
    · rename_i hbase
      exact agrees_buildBaseClass hrec hrec' (hneeds (.inr hbase))
    · exact agrees_noMember

/-- The children of a composite come to the same members in all states, all of whose types stand. -/
theorem agrees_buildMembers (hrec : Reliable store target root recurse)
    (hrec' : Reliable store target root recurse') (inUnion : Bool) (es : List Entry)
    (hneeds : ∀ c ∈ es, c.IsStored → ∀ type, c.typeRef? = some type → store.Needs root type) :
    Agrees store target root (fun _ => True) (buildMembers recurse target inUnion es)
      (buildMembers recurse' target inUnion es) (Going store target root Stand) := by
  induction es with
  | nil => exact agrees_pure fun _ _ _ hm => absurd hm (by simp)
  | cons c es ih =>
    rw [buildMembers_cons, buildMembers_cons]
    refine (agrees_buildPart hrec hrec' inUnion (hneeds c List.mem_cons_self)).bind fun member => ?_
    have hrest := ih fun other hother => hneeds other (List.mem_cons_of_mem _ hother)
    refine ((hrest.pre fun _ _ => trivial).frame (kept_stand _)).bind fun members => ?_
    refine agrees_pure fun s hs m hm => ?_
    rcases List.mem_append.1 hm with hm | hm
    · exact hs.1 m hm
    · exact hs.2 m hm

/-- Where the members end is the same in all states, since it is read off the sizes of types that
stand. -/
theorem agrees_endOfMembers (hacyclic : store.Acyclic) (inUnion : Bool) {all : List Member}
    (members : List Member) (hsub : ∀ m ∈ members, m ∈ all) :
    Agrees store target root (Stand all) (endOfMembers inUnion members)
      (endOfMembers inUnion members) (Going store target root fun _ => Stand all) := by
  induction members with
  | nil => exact agrees_pure fun _ hs => hs
  | cons m ms ih =>
    unfold endOfMembers
    have hm : ∀ s, Stand all s → s.Stands m.typeRef := fun s hs => hs m (hsub m List.mem_cons_self)
    have hrest := ih fun other hother => hsub other (List.mem_cons_of_mem _ hother)
    refine (agrees_sizeSoFar hacyclic hm).bind fun size => hrest.bind fun rest => ?_
    split
    · exact agrees_pure fun _ hs => hs
    · exact agrees_pure fun _ hs => hs

/-- The size deduced for a composite is the same in all states. -/
theorem agrees_deducedSize (hacyclic : store.Acyclic) (inUnion : Bool) (members : List Member) :
    Agrees store target root (Stand members) (deducedSize target inUnion members)
      (deducedSize target inUnion members) (Going store target root fun _ => Stand members) :=
  (agrees_endOfMembers hacyclic inUnion members fun _ hm => hm).bind fun _ =>
    agrees_pure fun _ hs => hs

/-- A composite that cannot be built loses its placeholder, and nothing else is lost. -/
theorem ended_discardPlaceholder {stop : BuildStop}
    (h : Ended store target root (.error stop) s) :
    Ended store target root (.error stop)
      { s with graph := s.graph.discardPlaceholder root } := by
  -- a placeholder is no fact, so that none is lost with it
  have hfacts :
      ({ s with graph := s.graph.discardPlaceholder root } : BuildState).facts = s.facts :=
    BuildState.facts_discardPlaceholder
  have hnames : (s.graph.discardPlaceholder root).typedefNames = s.graph.typedefNames := by
    unfold TypeGraph.discardPlaceholder
    split <;> rfl
  exact
    { tidy := h.tidy.withGraph discardPlaceholder_faults discardPlaceholder_aliases hnames
      faithful := fun ref href =>
        (h.faithful ref href).mono (fun hstands => hstands.mono hfacts.subset) rfl
          hfacts.symm.subset
      unfailed := h.unfailed
      unbuilt := fun _ _ hstands => h.unbuilt stop rfl (hstands.mono hfacts.subset) }

/-- Steps that agree still do so under a placeholder, which goes away again if they stop. -/
theorem agree_underPlaceholder {x y : Build Unit} (hacyclic : store.Acyclic)
    (hbody : store.IsBody root)
    (hx : Agrees store target root (fun _ => True) x y (Ended store target root))
    (hs : Due store target root s) (ht : Due store target root t) :
    Agree (Ended store target root) s t
      (exec (do
        update (·.addPlaceholder root)
        try x
        catch stop =>
          modify fun state => { state with graph := state.graph.discardPlaceholder root }
          throw stop) s)
      (exec (do
        update (·.addPlaceholder root)
        try y
        catch stop =>
          modify fun state => { state with graph := state.graph.discardPlaceholder root }
          throw stop) t) := by
  obtain ⟨g, hg, hready⟩ := hs.begin hacyclic hbody
  obtain ⟨g', hg', hready'⟩ := ht.begin hacyclic hbody
  obtain ⟨houtcome, ⟨news, hsfacts, htfacts⟩, hleft, hright⟩ :=
    hx _ _ hready hready' trivial trivial
  -- a placeholder is no fact, so that nothing has been learned yet
  rw [BuildState.facts_addPlaceholder hg] at hsfacts
  rw [BuildState.facts_addPlaceholder hg'] at htfacts
  rw [exec_bind, exec_bind, exec_update, exec_update, hg, hg']
  simp only [exec_tryCatch]
  rcases hxs : x.exec { s with graph := g } with ⟨outcome, s'⟩
  rcases hyt : y.exec { t with graph := g' } with ⟨outcome', t'⟩
  rw [hxs, hyt] at houtcome
  rw [hxs] at hleft hsfacts
  rw [hyt] at hright htfacts
  obtain rfl : outcome = outcome' := houtcome
  cases outcome with
  | ok a => exact ⟨rfl, ⟨news, hsfacts, htfacts⟩, hleft, hright⟩
  | error stop =>
    -- nor is anything forgotten when the placeholder is discarded
    have hlearned : Learned s { s' with graph := s'.graph.discardPlaceholder root } t
        { t' with graph := t'.graph.discardPlaceholder root } :=
      ⟨news, BuildState.facts_discardPlaceholder.trans hsfacts,
        BuildState.facts_discardPlaceholder.trans htfacts⟩
    exact ⟨rfl, hlearned, ended_discardPlaceholder hleft,
      ended_discardPlaceholder hright⟩

/-- The body of a composite that is defined where it stands is built alike from any two states. -/
theorem agree_buildBody {e : Entry} (hrec : Reliable store target e.ref recurse)
    (hrec' : Reliable store target e.ref recurse') (he : store.entry? e.ref = some e)
    (htag : e.tag.isComposite = true) (hcompletion : store.completion? e = none)
    (hs : Due store target e.ref s) (ht : Due store target e.ref t) :
    Agree (Ended store target e.ref) s t ((buildBody recurse target e).exec s)
      ((buildBody recurse' target e).exec t) := by
  have hbody : store.IsBody e.ref := ⟨e, he, htag, hcompletion⟩
  unfold buildBody
  extract_lets inUnion kind
  refine agree_underPlaceholder hrec.acyclic hbody ?_ hs ht
  refine (agrees_buildMembers hrec hrec' inUnion e.children ?_).bind fun members => ?_
  · exact fun c hc hstored type htype => .member he htag hcompletion hc hstored htype
  · split
    · -- three sources of the size: the entry, its absence, and the end of the last member
      exact .andThen (kept_stand members) (agrees_pure (Q := fun _ _ => True) fun _ _ => trivial)
        fun size => agrees_fillPlaceholder hbody
    · split
      · exact .andThen (kept_stand members) (agrees_pure (Q := fun _ _ => True) fun _ _ => trivial)
          fun size => agrees_fillPlaceholder hbody
      · exact ((agrees_deducedSize hrec.acyclic inUnion members).map _ (kept_stand members)).bind
          fun size => agrees_fillPlaceholder hbody

/-- A composite is built alike from any two states, be it through its own body or through the
definition that completes it. -/
theorem agree_buildComposite {e : Entry} (hrec : Reliable store target e.ref recurse)
    (hrec' : Reliable store target e.ref recurse') (he : store.entry? e.ref = some e)
    (htag : e.tag.isComposite = true) (hs : Due store target e.ref s)
    (ht : Due store target e.ref t) :
    Agree (Ended store target e.ref) s t ((buildComposite recurse store target e).exec s)
      ((buildComposite recurse' store target e).exec t) := by
  unfold buildComposite
  split
  · rename_i definition hdefinition
    have hcompletion : store.completion? e = some definition := hdefinition
    -- a declaration that is completed elsewhere has no body of its own
    have hbody : ¬ store.IsBody e.ref := Store.not_isBody he fun _ => by
      rw [hcompletion]
      simp
    have hneeds : store.Needs e.ref definition := .definition he htag hcompletion
    have hagrees := (agrees_recurse hrec hrec' hneeds (some e.ref)).bind fun _ =>
      @agrees_addAlias store target e.ref _ definition none hbody
    exact hagrees s t (hs.ready hbody) (ht.ready hbody) trivial trivial
  · rename_i hcompletion
    exact agree_buildBody hrec hrec' he htag hcompletion hs ht

/-- The building of an entry agrees with itself, from any two states. -/
theorem agree_buildEntry {e : Entry} (hrec : Reliable store target e.ref recurse)
    (hrec' : Reliable store target e.ref recurse') (he : store.entry? e.ref = some e)
    (hs : Due store target e.ref s) (ht : Due store target e.ref t) :
    Agree (Ended store target e.ref) s t ((buildEntry recurse store target e).exec s)
      ((buildEntry recurse' store target e).exec t) := by
  unfold buildEntry
  by_cases hcomposite : e.tag.isComposite = true
  · have halias : ¬ e.tag.isAlias = true := fun h => by
      rw [Tag.isComposite_of_isAlias h] at hcomposite
      exact absurd hcomposite (by decide)
    have hpointer : ¬ e.tag.isPointer = true := fun h => by
      rw [Tag.isComposite_of_isPointer h] at hcomposite
      exact absurd hcomposite (by decide)
    simp only [if_neg halias, if_neg hpointer, if_pos hcomposite]
    exact agree_buildComposite hrec hrec' he hcomposite hs ht
  · have hbody : ¬ store.IsBody e.ref := Store.not_isBody he fun h => absurd h hcomposite
    -- without members there is no placeholder, and the type is under construction at once
    have hready := hs.ready hbody
    have hready' := ht.ready hbody
    simp only [if_neg hcomposite]
    split
    · rename_i htag
      exact agrees_buildAlias hrec hrec' he htag hbody s t hready hready' trivial trivial
    split
    · exact agrees_buildPointer hbody s t hready hready' trivial trivial
    split
    · exact agrees_buildBaseType hbody s t hready hready' trivial trivial
    split
    · rename_i htag
      exact agrees_buildEnum hrec hrec' he htag hbody s t hready hready' trivial trivial
    split
    · rename_i htag
      exact agrees_buildArray hrec hrec' he htag hbody s t hready hready' trivial trivial
    split
    · exact agrees_buildSignature hbody s t hready hready' trivial trivial
    · exact agrees_addNode (P := fun _ => True) hbody rfl s t hready hready' trivial trivial

-- ---------------------------------------------------------------------------
-- All types
-- ---------------------------------------------------------------------------

/-- Nothing has been built at the start, so that there is nothing to disagree about. -/
theorem consistent_start (store : Store) (target : Target) : Consistent store target .start where
  coherent := BuildState.coherent_start store
  tidy := BuildState.tidy_start
  faithful ref :=
    { standing := fun h => absurd h.has (by simp [BuildState.start, empty, has, isAlias,
        OrderedMap.contains])
      failed := fun fault h => absurd h (by simp [BuildState.start]) }

theorem due_start (store : Store) (target : Target) (ref : Int) : Due store target ref .start where
  consistent := consistent_start store target
  surrounds outer h := absurd h (by simp [BuildState.start, empty, hasPlaceholder])
  following other h := absurd h (by simp [BuildState.start])
  unbuilt h := absurd h.has (by simp [BuildState.start, empty, has, isAlias, OrderedMap.contains])
  unfailed := rfl

/-- A depth at which the types are built that a type needs in a fresh state. -/
def freshDepth (store : Store) : Nat := (2 * store.size + 2) * (store.size + 1)

/-- A fresh state is what becomes of the entry, whatever needs it. -/
theorem fresh_eq {e : Entry} (he : store.entry? ref = some e) (usedBy : Option Int) :
    fresh store target ref usedBy = concluded e.ref
      ((buildEntry (buildRef store target (freshDepth store)) store target e).exec .start) := by
  have hexec := exec_buildRef store target (freshDepth store) ref usedBy .start
  rw [he] at hexec
  exact hexec

/-- A type without an entry dangles in a fresh state, and that is all that is noted. -/
theorem fresh_missing (he : store.entry? ref = none) (usedBy : Option Int) :
    fresh store target ref usedBy = (.error (.type (.dangling ⟨ref, usedBy⟩)),
      BuildState.start.noted (.dangling ⟨ref, usedBy⟩)) := by
  have hexec := exec_buildRef store target (freshDepth store) ref usedBy .start
  rw [he] at hexec
  exact hexec

-- ---------------------------------------------------------------------------
-- What an entry comes to
-- ---------------------------------------------------------------------------

/-- When the building of an entry has ended, the state holds of its type what it should. -/
theorem consistent_ended (hcoherent : s.Coherent store)
    (hended : Ended store target ref (.ok ()) s)
    (hfresh : ∀ usedBy, (fresh store target ref usedBy).1 = .ok () ∧
      (fresh store target ref usedBy).2.facts ⊆ s.facts) : Consistent store target s where
  coherent := hcoherent
  tidy := hended.tidy
  faithful other := by
    by_cases hother : other = ref
    · subst hother
      refine ⟨fun _ => hfresh, fun fault hfault => ?_⟩
      rw [hended.unfailed] at hfault
      exact absurd hfault (by simp)
    · exact hended.faithful other hother

/-- When the building of an entry has stopped, the state holds why. -/
theorem consistent_leftOut {stop : BuildStop} (hcoherent : (s.leftOut ref stop).Coherent store)
    (hended : Ended store target ref (.error stop) s)
    (hfresh : ∀ usedBy, (fresh store target ref usedBy).1 = .error (.type (stop.fault ref)) ∧
      (fresh store target ref usedBy).2.facts ⊆ (s.leftOut ref stop).facts) :
    Consistent store target (s.leftOut ref stop) where
  coherent := hcoherent
  tidy := hended.tidy.leftOut stop hended.unfailed
  faithful other := by
    -- to leave a type out changes the failures and nothing else
    have hstands : (s.leftOut ref stop).Stands other → s.Stands other := by
      cases stop <;> exact id
    have hfailures : (s.leftOut ref stop).failures.get? other =
        if ref = other then some (stop.fault ref) else s.failures.get? other := by
      cases stop <;> exact BuildState.failures_remembering ..
    by_cases hother : ref = other
    · subst hother
      refine ⟨fun h => absurd (hstands h) (hended.unbuilt stop rfl), fun fault hfault => ?_⟩
      rw [hfailures, if_pos rfl] at hfault
      obtain rfl := Option.some.inj hfault
      exact hfresh
    · rw [if_neg hother] at hfailures
      have hfacts := BuildState.facts_leftOut stop hended.unfailed
      exact (hended.faithful other (Ne.symm hother)).mono hstands hfailures
        (hfacts ▸ Set.subset_union_left)

/-- What becomes of an entry is what becomes of it in a fresh state, if the two agree. -/
theorem comesTo_concluded {left right : Except BuildStop Unit × BuildState}
    (hagree : Agree (Ended store target ref) s .start left right)
    (hfresh : ∀ usedBy, fresh store target ref usedBy = concluded ref right)
    (hcoherent : (concluded ref left).2.Coherent store) (usedBy : Option Int) :
    ComesTo store target ref usedBy s (concluded ref left) := by
  obtain ⟨outcome, s'⟩ := left
  obtain ⟨outcome', t'⟩ := right
  obtain ⟨houtcome, ⟨news, hsfacts, htfacts⟩, hended, hended'⟩ := hagree
  obtain rfl : outcome = outcome' := houtcome
  have hnews : t'.facts = news :=
    htfacts.trans (by rw [BuildState.facts_start, Set.empty_union])
  -- the fresh state starts without facts, so that its news are all of its facts
  cases outcome with
  | ok a =>
    have hfacts : ∀ usedBy, (fresh store target ref usedBy).2.facts = news := by
      intro usedBy
      rw [hfresh usedBy]
      exact hnews
    refine ⟨by rw [hfresh usedBy]; rfl, by rw [hfacts usedBy]; exact hsfacts, ?_⟩
    refine consistent_ended hcoherent hended fun usedBy => ⟨by rw [hfresh usedBy]; rfl, ?_⟩
    rw [hfacts usedBy]
    exact hsfacts ▸ Set.subset_union_right
  | error stop =>
    -- a type that is left out adds its own fault to what was learned on both sides
    have hleftOut : (s'.leftOut ref stop).facts = s.facts ∪ (news ∪ stop.facts ref) := by
      rw [BuildState.facts_leftOut stop hended.unfailed, hsfacts, Set.union_assoc]
    have hfacts : ∀ usedBy, (fresh store target ref usedBy).2.facts = news ∪ stop.facts ref := by
      intro usedBy
      rw [hfresh usedBy]
      exact (BuildState.facts_leftOut stop hended'.unfailed).trans
        (congrArg (· ∪ stop.facts ref) hnews)
    refine ⟨by rw [hfresh usedBy]; rfl, by rw [hfacts usedBy]; exact hleftOut, ?_⟩
    refine consistent_leftOut hcoherent hended fun usedBy => ⟨by rw [hfresh usedBy]; rfl, ?_⟩
    rw [hfacts usedBy]
    exact hleftOut ▸ Set.subset_union_right

/-- A type comes to what it would come to in a fresh state, if the types that it needs do. -/
theorem settles_of_needed (hacyclic : store.Acyclic) {depth : Nat}
    (hneeded : ∀ needed, store.Needs ref needed →
      Settles store target (buildRef store target depth) needed ∧
        Settles store target (buildRef store target (freshDepth store)) needed) :
    Settles store target (buildRef store target (depth + 1)) ref := by
  intro usedBy s hs
  have hsurrounds : s.Surrounds store ref :=
    fun outer houter => (hs.surrounds outer houter).to_reflTransGen
  have hrun : Run store ref s ((buildRef store target (depth + 1) ref usedBy).exec s).2 :=
    (runs_buildRef store target (depth + 1) ref usedBy s hs.consistent.coherent hsurrounds
      trivial).1
  have hcoherent := hrun.coherent hs.consistent.coherent
  rw [exec_buildRef] at hcoherent ⊢
  -- what is there, or is known to have failed, is what would come of it in a fresh state, since the
  -- state is faithful
  by_cases hhas : s.graph.has ref = true
  · rw [if_pos hhas]
    obtain ⟨houtcome, hfacts⟩ :=
      (hs.consistent.faithful ref).standing (hs.stands hacyclic hhas) usedBy
    exact ⟨houtcome.symm, (Set.union_eq_self_of_subset_right hfacts).symm, hs.consistent⟩
  rw [if_neg hhas] at hcoherent ⊢
  cases hfailed : s.failures.get? ref with
  | some fault =>
    obtain ⟨houtcome, hfacts⟩ := (hs.consistent.faithful ref).failed fault hfailed usedBy
    exact ⟨houtcome.symm, (Set.union_eq_self_of_subset_right hfacts).symm, hs.consistent⟩
  | none =>
    rw [hfailed] at hcoherent
    cases he : store.entry? ref with
    | none =>
      refine ⟨by rw [fresh_missing he], ?_, hs.consistent.noted he⟩
      rw [fresh_missing he]
      dsimp only
      rw [BuildState.facts_noted, BuildState.facts_noted, BuildState.facts_start, Set.empty_union]
    | some e =>
      obtain rfl : e.ref = ref := Store.entry?_ref he
      rw [he] at hcoherent
      -- nothing is known of the type yet: its entry is built here as in the fresh state
      have hdue : Due store target e.ref s := ⟨hs, fun hstands => hhas hstands.has, hfailed⟩
      have hagree := agree_buildEntry
        ⟨hacyclic, runs_buildRef store target depth, fun needed h => (hneeded needed h).1⟩
        ⟨hacyclic, runs_buildRef store target _, fun needed h => (hneeded needed h).2⟩ he hdue
        (due_start store target e.ref)
      exact comesTo_concluded hagree (fresh_eq he) hcoherent usedBy

end TypeGraph

end DebugLayout
