/-
# EggLanguage.Proofs.Ancestry -- scope chains stay well-founded

The chain of a scope and the search for a name are loops along the scopes around a scope, and what
the loops come to is told here by relations that hold only if they end (`Store.Ancestry`,
`Store.Search`).  In a well nested store they do, for every scope and name (`Store.WellNested`).

Stores come about in the hands of a `Host`: it makes scopes, binds in them, evaluates and calls,
and keeps the values that it gets to see for later use.  It has no other values, so what it hands
to a store fits the store (`Host.Founded`); this is kept by each step, and so by all of them.  The
programs of a workspace fit too, and in its store there is one scope that none lies around: the
global one, with which all chains end (`Host.scopes_wellNested`).
-/
import Mathlib.Logic.Relation
import EggLanguage.Proofs.Founded
import EggLanguage.Proofs.Isolation

namespace EggLanguage

set_option autoImplicit false

namespace Store

/-! ## Loops along scopes -/

section

variable (s : Store)

/-- The scopes from a scope outward, the last of which none lies around. -/
inductive Ancestry : ScopeId → List ScopeId → Prop where
  | outermost {i : ScopeId} (alone : s.parent? i = none) : Ancestry i [i]
  | within {i p : ScopeId} {ancestors : List ScopeId} (around : s.parent? i = some p)
      (further : Ancestry p ancestors) : Ancestry i (i :: ancestors)

/-- What the search for a name from a scope outward comes to: the value that it is bound to first,
or none where it is not bound. -/
inductive Search (name : String) : ScopeId → Option Value → Prop where
  | found {i : ScopeId} {v : Value} (bound : (s.bindings i).find? name = some v) :
      Search name i (some v)
  | outward {i p : ScopeId} {result : Option Value} (free : (s.bindings i).find? name = none)
      (around : s.parent? i = some p) (further : Search name p result) : Search name i result
  | nowhere {i : ScopeId} (free : (s.bindings i).find? name = none) (alone : s.parent? i = none) :
      Search name i none

end

variable {s : Store}

/-- The chain of a scope is determined. -/
theorem Ancestry.unique {i : ScopeId} {ancestors others : List ScopeId}
    (left : s.Ancestry i ancestors) (right : s.Ancestry i others) : ancestors = others := by
  induction left generalizing others with
  | outermost alone =>
      cases right with
      | outermost => rfl
      | within around => cases alone.symm.trans around
  | within around _ ih =>
      cases right with
      | outermost alone => cases alone.symm.trans around
      | within around' further =>
          cases around.symm.trans around'
          exact congrArg _ (ih further)

theorem Search.unique {name : String} {i : ScopeId} {result other : Option Value}
    (left : s.Search name i result) (right : s.Search name i other) : result = other := by
  induction left with
  | found bound =>
      cases right with
      | found bound' => exact bound.symm.trans bound'
      | outward free => cases free.symm.trans bound
      | nowhere free => cases free.symm.trans bound
  | outward free around _ ih =>
      cases right with
      | found bound => cases free.symm.trans bound
      | outward _ around' further =>
          cases around.symm.trans around'
          exact ih further
      | nowhere _ alone => cases alone.symm.trans around
  | nowhere free alone =>
      cases right with
      | found bound => cases free.symm.trans bound
      | outward _ around => cases alone.symm.trans around
      | nowhere => rfl

theorem Ancestry.le (layered : s.Layered) {i : ScopeId} {ancestors : List ScopeId}
    (ancestry : s.Ancestry i ancestors) : ∀ j ∈ ancestors, j ≤ i := by
  induction ancestry with
  | outermost _ => exact List.forall_mem_singleton.2 (Nat.le_refl _)
  | within around _ ih =>
      refine List.forall_mem_cons.2 ⟨Nat.le_refl _, fun j member => ?_⟩
      exact Nat.le_of_lt (Nat.lt_of_le_of_lt (ih j member) (layered _ _ around))

/-- Chains do not come back to a scope. -/
theorem Ancestry.descending (layered : s.Layered) {i : ScopeId} {ancestors : List ScopeId}
    (ancestry : s.Ancestry i ancestors) : ancestors.Pairwise (· > ·) := by
  induction ancestry with
  | outermost _ => exact List.pairwise_singleton _ _
  | within around further ih =>
      refine List.pairwise_cons.2 ⟨fun j member => ?_, ih⟩
      exact Nat.lt_of_le_of_lt (further.le layered j member) (layered _ _ around)

namespace Layered

variable (layered : s.Layered)

include layered

/-- Every chain ends.  The induction is on the scope, from the outermost inward. -/
theorem ancestry (i : ScopeId) : s.Ancestry i (s.chain i) := by
  induction i using Nat.strongRecOn with
  | ind i ih =>
      rw [layered.chain_eq]
      cases around : s.parent? i with
      | none => exact .outermost around
      | some p => exact .within around (ih p (layered i p around))

/-- So does every search, as it goes along the chain. -/
theorem search (name : String) (i : ScopeId) : s.Search name i (s.lookup? i name) := by
  induction i using Nat.strongRecOn with
  | ind i ih =>
      rw [layered.lookup?_eq]
      cases found : (s.bindings i).find? name with
      | some v => exact .found found
      | none =>
          cases around : s.parent? i with
          | none => exact .nowhere found around
          | some p => exact .outward found around (ih p (layered i p around))

theorem wellFounded : WellFounded fun p i => s.parent? i = some p :=
  Subrelation.wf (fun {p i} around => layered i p around) Nat.lt_wfRel.wf

end Layered

theorem lt_size_of_parent? {i p : ScopeId} (around : s.parent? i = some p) :
    i < s.scopes.size := by
  rw [parent?] at around
  split at around
  · rename_i scope there
    exact (Array.getElem?_eq_some_iff.1 there).1
  · cases around

/-! ## Well nested stores -/

/-- The scopes of a store lie in one another in the order in which they were made, also as the
values in the store see them. -/
structure WellNested (s : Store) : Prop where
  parents : ∀ i p, s.parent? i = some p → p < i ∧ i < s.scopes.size
  /-- The scopes that values hold exist. -/
  bound : ∀ i, ∀ pair ∈ s.bindings i, pair.2.Founded s.scopes.size
  printed : ∀ v ∈ s.printed, v.Founded s.scopes.size
  wellFounded : WellFounded fun p i => s.parent? i = some p
  chain : ∀ i ancestors, s.Ancestry i ancestors ↔ ancestors = s.chain i
  descending : ∀ i, (s.chain i).Pairwise (· > ·)
  lookup : ∀ i name result, s.Search name i result ↔ result = s.lookup? i name
  contains : ∀ i name, s.contains i name = true ↔ ∃ v, s.Search name i (some v)

namespace Founded

variable {root : ScopeId → Prop} (founded : s.Founded root)

include founded

theorem wellNested : s.WellNested where
  parents i p around := ⟨founded.layered i p around, lt_size_of_parent? around⟩
  bound := founded.bound
  printed := founded.printed
  wellFounded := founded.layered.wellFounded
  chain i ancestors := by
    constructor
    · exact fun ancestry => ancestry.unique (founded.layered.ancestry i)
    · rintro rfl
      exact founded.layered.ancestry i
  descending i := (founded.layered.ancestry i).descending founded.layered
  lookup i name result := by
    constructor
    · exact fun search => search.unique (founded.layered.search name i)
    · rintro rfl
      exact founded.layered.search name i
  contains i name := by
    rw [contains_eq, Option.isSome_iff_exists]
    constructor
    · rintro ⟨v, found⟩
      exact ⟨v, found ▸ founded.layered.search name i⟩
    · rintro ⟨v, search⟩
      exact ⟨v, (founded.layered.search name i).unique search⟩

/-- A chain ends with a root. -/
theorem root_of_ancestry {i : ScopeId} (exist : i < s.scopes.size) {ancestors : List ScopeId}
    (ancestry : s.Ancestry i ancestors) : ∃ r, ancestors.getLast? = some r ∧ root r := by
  induction ancestry with
  | @outermost i alone => exact ⟨i, rfl, founded.rooted i exist alone⟩
  | @within i p ancestors around further ih =>
      obtain ⟨r, last, isRoot⟩ := ih (Nat.lt_trans (founded.layered i p around) exist)
      exact ⟨r, by rw [List.getLast?_cons, last, Option.getD_some], isRoot⟩

end Founded

end Store

/-! ## Hosts -/

/-- One that works on a store, and keeps the values that it gets. -/
structure Host where
  store : Store
  held : List Value

namespace Host

def hold (h : Host) (v : Value) : Host :=
  { h with held := v :: h.held }

/-- What a computation did stays done, and its value is kept if it has one. -/
def after (h : Host) (x : Eval Value) : Host :=
  ⟨(x.outcome h.store).2, (x.outcome h.store).1.toOption.toList ++ h.held⟩

/-- The expressions that a host can build: from words and values, and from the bodies of functions
that it looks into. -/
inductive Builds (held : List Value) : Expr → Prop where
  | word (name : String) (span : Span) : Builds held (.word name span)
  | literal (c : Constant) (span : Span) : Builds held (.literal c span)
  | value {v : Value} (known : v ∈ held) (span : Span) : Builds held (v.node span)
  | apply {operator : Expr} (applied : Builds held operator) {args : List Expr}
      (each : ∀ a ∈ args, Builds held a) (span : Span) : Builds held (.apply operator args span)
  | inBody {f : Closure} (known : .closure f ∈ held) {x : Expr} (inside : x ∈ f.body.nodes) :
      Builds held x
  | abstract : Builds held .abstract

/-- What a host can do: take constants, make scopes, bind and look up, take what was printed, read a
text, make functions, evaluate and call.  It evaluates and calls under any limits.  Whether it makes
scopes that none lies around is left open. -/
inductive Step (detached : Prop) (h : Host) : Host → Prop where
  | constant (c : Constant) : Step detached h (h.hold (.constant c))
  | alone (allowed : detached) {given : List (String × Value)}
      (known : ∀ pair ∈ given, pair.2 ∈ h.held) :
      Step detached h { h with store := (h.store.newScope (Ordered.ofList given) none).2 }
  | child {around : ScopeId} (exist : around < h.store.scopes.size) {given : List (String × Value)}
      (known : ∀ pair ∈ given, pair.2 ∈ h.held) :
      Step detached h { h with store := (h.store.newScope (Ordered.ofList given) (some around)).2 }
  | bind {scope : ScopeId} (exist : scope < h.store.scopes.size) (name : String) {v : Value}
      (known : v ∈ h.held) : Step detached h { h with store := h.store.bind scope name v }
  | lookup (scope : ScopeId) (name : String) : Step detached h (h.after (Eval.lookup scope name))
  | printed {v : Value} (member : v ∈ h.store.printed) : Step detached h (h.hold v)
  | read (text : String) : Step detached h { h with store := (h.store.newSource text).2 }
  | made (parameters : List String) {body : Expr} (built : Builds h.held body) {scope : ScopeId}
      (exist : scope < h.store.scopes.size) (dialect : DialectId) :
      Step detached h (h.after (Eval.newFunction parameters body scope dialect))
  | evaluate (limits : Limits) (dialect : DialectId) {e : Expr} (built : Builds h.held e)
      {scope : ScopeId} (exist : scope < h.store.scopes.size) :
      Step detached h (h.after ((Setting.standard limits).run dialect e scope))
  | call (limits : Limits) {callee : Value} (known : callee ∈ h.held) {args : List Value}
      (each : ∀ v ∈ args, v ∈ h.held) :
      Step detached h (h.after ((Setting.standard limits).callValue callee args))

/-- The scopes that values hold exist, in the store and with the host. -/
structure Founded (root : ScopeId → Prop) (h : Host) : Prop where
  store : h.store.Founded root
  held : ∀ v ∈ h.held, v.Founded h.store.scopes.size

/-- There are no fewer scopes, and the scopes that values hold exist. -/
structure Later (root : ScopeId → Prop) (h h' : Host) : Prop where
  size : h.store.scopes.size ≤ h'.store.scopes.size
  founded : h'.Founded root

theorem Builds.founded {n : Nat} {held : List Value} (founded : ∀ v ∈ held, v.Founded n) {e : Expr}
    (built : Builds held e) : e.Founded n := by
  induction built with
  | word name span => exact Expr.founded_of_leaf rfl nofun
  | literal c span => exact Expr.founded_of_leaf rfl nofun
  | value known span => exact (founded _ known).node span
  | @apply operator _ args _ span applied each =>
      rintro f ⟨at', node⟩
      rcases List.mem_cons.1 node with same | node
      · cases same
      · rcases List.mem_append.1 node with node | node
        · exact applied f ⟨at', node⟩
        · obtain ⟨a, member, node⟩ := Expr.mem_nodesOfArgs.1 node
          exact each a member f ⟨at', node⟩
  | inBody known inside => exact (founded _ known _ rfl).body.node inside
  | abstract => exact Expr.founded_of_leaf rfl nofun

namespace Founded

variable {root : ScopeId → Prop} {h : Host} (founded : h.Founded root)

include founded

/-- How a computation may end that leaves a store behind. -/
theorem ended {s : Store} {result : Except Stop Value}
    (le : h.store.scopes.size ≤ s.scopes.size) (store : s.Founded root)
    (value : ∀ v, result = .ok v → v.Founded s.scopes.size) :
    Founded root ⟨s, result.toOption.toList ++ h.held⟩ := by
  refine ⟨store, fun v member => ?_⟩
  rcases List.mem_append.1 member with new | known
  · cases result with
    | ok w =>
        cases List.mem_singleton.1 new
        exact value v rfl
    | error e => cases new
  · exact (founded.held v known).mono le

theorem changed {s : Store} (le : h.store.scopes.size ≤ s.scopes.size) (store : s.Founded root) :
    h.Later root { h with store := s } :=
  ⟨le, store, fun v known => (founded.held v known).mono le⟩

theorem hold {v : Value} (value : v.Founded h.store.scopes.size) : h.Later root (h.hold v) :=
  ⟨Nat.le_refl _, founded.store, List.forall_mem_cons.2 ⟨value, founded.held⟩⟩

theorem after {x : Eval Value} (stays : x.StaysFounded root h.store) : h.Later root (h.after x) :=
  ⟨stays.size, founded.ended stays.size stays.store stays.value⟩

/-- What each step of a host comes to. -/
theorem step {detached : Prop} (allowed : detached → ∀ i, root i) {h' : Host}
    (step : Step detached h h') : h.Later root h' := by
  have given : ∀ {given : List (String × Value)}, (∀ pair ∈ given, pair.2 ∈ h.held) →
      ∀ pair ∈ Ordered.ofList given, pair.2.Founded h.store.scopes.size :=
    fun known => Ordered.forall_ofList fun pair member => founded.held _ (known pair member)
  cases step with
  | constant c => exact founded.hold (Value.founded_constant _ c)
  | alone detached known =>
      refine founded.changed ?_ (founded.store.newScope (given known) nofun fun _ => ?_)
      · exact Store.size_newScope .. ▸ Nat.le_succ _
      · exact allowed detached _
  | @child around exist _ known =>
      refine founded.changed ?_ (founded.store.newScope (given known) ?_ nofun)
      · exact Store.size_newScope .. ▸ Nat.le_succ _
      · rintro p ⟨⟩
        exact exist
  | @bind scope exist name v known =>
      refine founded.changed ?_ (founded.store.bind (founded.held v known) scope name)
      exact Nat.le_of_eq (Store.size_bind ..).symm
  | lookup scope name =>
      exact founded.after (.of_inStep (Correspondence.founded_lookup scope name) founded.store)
  | printed member => exact founded.hold (founded.store.printed _ member)
  | read text => exact founded.changed (Nat.le_refl _) (founded.store.renumbered rfl rfl)
  | made parameters built exist dialect =>
      refine founded.after (.of_inStep ?_ founded.store)
      exact Correspondence.founded_newFunction parameters (built.founded founded.held) exist dialect
  | evaluate limits dialect built exist =>
      exact founded.after (Setting.run_founded founded.store limits dialect
        (built.founded founded.held) exist)
  | call limits known each =>
      exact founded.after (Setting.callValue_founded founded.store limits (founded.held _ known)
        fun v member => founded.held v (each v member))

/-- And therefore what all of them come to. -/
theorem steps {detached : Prop} (allowed : detached → ∀ i, root i) {h' : Host}
    (steps : Relation.ReflTransGen (Step detached) h h') : h'.Founded root := by
  induction steps with
  | refl => exact founded
  | tail _ step ih => exact (ih.step allowed step).founded

end Founded

end Host

/-! ## Workspaces -/

/-- No function stands in a program. -/
theorem Expr.founded_of_wellFormed {e : Expr} (formed : e.WellFormed) (n : Nat) : e.Founded n := by
  rintro f ⟨span, node⟩
  exact (formed.node node).elim

namespace Workspace

/-- The value of a run is that of its program, or a text. -/
theorem ok_of_reported {result : Except Stop Value} {v : Value} (given : reported result = .ok v) :
    result = .ok v ∨ ∃ text, v = .string text := by
  cases result with
  | ok value => exact .inl given
  | error stop =>
      cases stop with
      | failure f =>
          cases given
          exact .inr ⟨f.text, rfl⟩
      | crash c => cases given

/-- The value that a use gives, if it gives one. -/
def Use.value? (w : Workspace) : Use → Option Value
  | .run fragments => ((Workspace.run fragments).outcome w).1.toOption
  | .evaluate fragments choice path =>
      ((Workspace.evaluate fragments choice path).outcome w).1.toOption
  | .parse _ _ => none

/-- What a workspace comes to in the hands of a host that uses it and works on its store, with the
values that the host gets.  It makes no scopes that none lies around. -/
inductive Hosted (start : Workspace) : Workspace → List Value → Prop where
  | start : Hosted start start []
  | use {w : Workspace} {held : List Value} (hosted : Hosted start w held) (used : Use) :
      Hosted start (w.use used) ((used.value? w).toList ++ held)
  | step {w : Workspace} {held : List Value} {h : Host} (hosted : Hosted start w held)
      (step : Host.Step False ⟨w.store, held⟩ h) : Hosted start { w with store := h.store } h.held

section

variable {root : ScopeId → Prop} {n : Nat} {limits : Limits} {w : Workspace}

theorem reading_founded (w : Workspace) (text : String) :
    Eval.InStep (Correspondence.founded root).toComparison n
      (fun n e e' => e = e' ∧ e.Founded n) (w.reading text) (w.reading text) := by
  have numbered : Eval.InStep (Correspondence.founded root).toComparison n
      (fun _ (source source' : Source) => source = source') (Eval.step fun s => s.newSource text)
      (Eval.step fun s => s.newSource text) := by
    refine Correspondence.founded_step fun s size kept => ?_
    subst size
    exact ⟨Nat.le_refl _, kept.renumbered rfl rfl, rfl⟩
  refine numbered.bind fun later source _ _ same => .ofExcept ?_
  subst same
  cases parsed : Expr.parse w.setting.limits.nesting source with
  | ok e =>
      exact .ok ⟨rfl, Expr.founded_of_wellFormed (Expr.wellFormed_of_parse parsed) later⟩
  | error stop => exact .error (.refl (fun _ => trivial) stop)

theorem scopeOf_founded (globalExists : w.globalScope < n) (lastingExists : w.lastingScope < n)
    (choice : ScopeChoice) :
    Eval.InStep (Correspondence.founded root).toComparison n (fun n i i' => i = i' ∧ i < n)
      (w.scopeOf choice) (w.scopeOf choice) := by
  cases choice with
  | fresh =>
      refine Correspondence.founded_step fun s size kept => ?_
      subst size
      rw [Store.size_newScope, Store.newScope_fst]
      refine ⟨Nat.le_succ _, kept.newScope (List.forall_mem_nil _) ?_ nofun, rfl,
        Nat.lt_succ_self _⟩
      rintro p ⟨⟩
      exact globalExists
  | lasting => exact .pure ⟨rfl, lastingExists⟩

theorem program_founded (standard : w.setting = .standard limits) (globalExists : w.globalScope < n)
    (lastingExists : w.lastingScope < n) (text : String) (choice : ScopeChoice) :
    Eval.InStep (Correspondence.founded root).toComparison n (Correspondence.founded root).values
      (w.program text choice) (w.program text choice) := by
  refine (reading_founded w text).bind fun n₁ e e' le read => ?_
  obtain ⟨rfl, built⟩ := read
  have globalExists := Nat.lt_of_lt_of_le globalExists le
  have lastingExists := Nat.lt_of_lt_of_le lastingExists le
  refine (scopeOf_founded globalExists lastingExists choice).bind fun n₂ i i' le₂ scopes => ?_
  obtain ⟨rfl, exist⟩ := scopes
  refine (logging_inStep w e).bind fun n₃ _ _ le₃ _ => ?_
  rw [standard]
  have task : (Correspondence.founded root).tasks n₃ ⟨w.dialect, e, i⟩ ⟨w.dialect, e, i⟩ :=
    ⟨rfl, built.mono (Nat.le_trans le₂ le₃), Nat.lt_of_lt_of_le exist le₃⟩
  exact (Correspondence.founded_simulates root limits).evaluate limits.depth task

end

/-- The invariant of a workspace and its host: chains end in the global scope. -/
structure Rooted (start w : Workspace) (held : List Value) : Prop where
  continues : start.Continues w
  host : Host.Founded (· = start.globalScope) ⟨w.store, held⟩
  globalExists : start.globalScope < w.store.scopes.size
  lastingExists : start.lastingScope < w.store.scopes.size

namespace Rooted

variable {start w : Workspace} {held : List Value} (rooted : start.Rooted w held)

include rooted

theorem later {w' : Workspace} {held' : List Value} (continues : w.Continues w')
    (le : w.store.scopes.size ≤ w'.store.scopes.size)
    (host : Host.Founded (· = start.globalScope) ⟨w'.store, held'⟩) : start.Rooted w' held' where
  continues := rooted.continues.trans continues
  host := host
  globalExists := Nat.lt_of_lt_of_le rooted.globalExists le
  lastingExists := Nat.lt_of_lt_of_le rooted.lastingExists le

theorem program {limits : Limits} (standard : start.setting = .standard limits) (text : String)
    (choice : ScopeChoice) :
    (w.program text choice).StaysFounded (· = start.globalScope) w.store := by
  refine .of_inStep (program_founded (rooted.continues.setting.trans standard) ?_ ?_ text choice)
    rooted.host.store
  · rw [rooted.continues.globalScope]
    exact rooted.globalExists
  · rw [rooted.continues.lastingScope]
    exact rooted.lastingExists

theorem ended {w' : Workspace} {result : Except Stop Value} (continues : w.Continues w')
    (le : w.store.scopes.size ≤ w'.store.scopes.size)
    (store : w'.store.Founded (· = start.globalScope))
    (value : ∀ v, result = .ok v → v.Founded w'.store.scopes.size) :
    start.Rooted w' (result.toOption.toList ++ held) :=
  rooted.later continues le (rooted.host.ended le store value)

/-- However the workspace is used, and however that ends. -/
theorem use {limits : Limits} (standard : start.setting = .standard limits) (used : Use) :
    start.Rooted (w.use used) ((used.value? w).toList ++ held) := by
  cases used with
  | run fragments =>
      obtain ⟨result, store, continues⟩ := run_follows w fragments
      obtain ⟨le, founded, value⟩ := rooted.program standard (join fragments) .fresh
      rw [← store] at le founded value
      refine rooted.ended continues le founded fun v given => ?_
      rcases ok_of_reported (result.symm.trans given) with same | ⟨text, rfl⟩
      · exact value v same
      · exact Value.founded_constant _ _
  | evaluate fragments choice path =>
      obtain ⟨result, store, continues⟩ := evaluate_follows w fragments choice path
      obtain ⟨le, founded, value⟩ := rooted.program standard (join fragments) choice
      rw [← store] at le founded value
      rw [← result] at value
      exact rooted.ended continues le founded value
  | parse fragments path =>
      obtain ⟨-, store, continues⟩ := parse_follows w fragments path
      obtain ⟨_, le, ⟨-, rfl, founded⟩, -⟩ :=
        reading_founded w (join fragments) _ _ ⟨rfl, rfl, rooted.host.store⟩
      rw [← store] at le founded
      exact rooted.later continues le (rooted.host.changed le founded).founded

/-- A host makes no further roots. -/
theorem step {h : Host} (step : Host.Step False ⟨w.store, held⟩ h) :
    start.Rooted { w with store := h.store } h.held := by
  obtain ⟨le, founded⟩ := rooted.host.step False.elim step
  exact rooted.later ⟨rfl, rfl, rfl, rfl, rfl⟩ le founded

end Rooted

theorem new_rooted (setting : Setting) (dialect : DialectId) (reporter : Reporter)
    (verbose : Bool) :
    (new setting dialect reporter verbose).Rooted (new setting dialect reporter verbose) [] where
  continues := .refl _
  host := by
    have constants : ∀ pair ∈ Store.globalBindings, pair.2.Founded 0 := by
      intro pair member
      obtain ⟨c, same⟩ := Store.globalBindings_constant pair member
      rw [same]
      exact Value.founded_constant 0 c
    have global : (Store.empty.newScope Store.globalBindings none).2.Founded (· = 0) :=
      (Store.Founded.empty _).newScope constants nofun fun _ => rfl
    refine ⟨global.newScope (List.forall_mem_nil _) ?_ nofun, List.forall_mem_nil _⟩
    rintro p ⟨⟩
    exact Nat.zero_lt_one
  globalExists := Nat.zero_lt_two
  lastingExists := Nat.one_lt_two

theorem Hosted.rooted {limits : Limits} {start w : Workspace} {held : List Value}
    (standard : start.setting = .standard limits) (rooted : start.Rooted start [])
    (hosted : start.Hosted w held) : start.Rooted w held := by
  induction hosted with
  | start => exact rooted
  | use _ used ih => exact ih.use standard used
  | step _ step ih => exact ih.step step

end Workspace

namespace Host

/-- **Scope chains stay well-founded.**  Whatever a host does to an empty store, step by step and
however the evaluations and calls end, the scopes lie in one another as they were made, and the
scopes that functions hold exist; so each chain and each search ends.  The same goes for the store
of a workspace that a host uses, besides working on its scopes and values; and if it makes no
scopes that none lies around, all chains there end with the global scope. -/
theorem scopes_wellNested :
    (∀ h, Relation.ReflTransGen (Step True) ⟨.empty, []⟩ h →
      h.store.WellNested ∧ ∀ v ∈ h.held, v.Founded h.store.scopes.size) ∧
    ∀ (limits : Limits) (dialect : DialectId) (reporter : Reporter) (verbose : Bool)
      (w : Workspace) (held : List Value),
      (Workspace.new (.standard limits) dialect reporter verbose).Hosted w held →
      w.store.WellNested ∧ (∀ v ∈ held, v.Founded w.store.scopes.size) ∧
      ∀ i < w.store.scopes.size, (w.store.chain i).getLast? = some w.globalScope := by
  constructor
  · intro h steps
    have start : Founded (fun _ => True) ⟨.empty, []⟩ := ⟨.empty _, List.forall_mem_nil _⟩
    have founded := start.steps (fun _ _ => trivial) steps
    exact ⟨founded.store.wellNested, founded.held⟩
  · intro limits dialect reporter verbose w held hosted
    obtain ⟨continues, ⟨store, values⟩, -, -⟩ := hosted.rooted rfl (Workspace.new_rooted ..)
    refine ⟨store.wellNested, values, fun i exist => ?_⟩
    obtain ⟨r, last, rfl⟩ := store.root_of_ancestry exist (store.layered.ancestry i)
    rw [last, continues.globalScope]

/-- The function that `define(f, fun(f))` makes in the first scope of a store: it holds this scope,
which binds it. -/
def loop : Closure :=
  ⟨0, [], .word "f" ⟨14, 15, none⟩, 0, 0⟩

/-- One scope, the definition in it, and a call of what is defined. -/
def looped : Host :=
  let define := .apply (.word "define" ⟨0, 6, none⟩) [.word "f" ⟨7, 8, none⟩,
    .apply (.word "fun" ⟨10, 13, none⟩) [loop.body] ⟨10, 16, none⟩] ⟨0, 17, none⟩
  let first : Host := ⟨(Store.empty.newScope (Ordered.ofList []) none).2, []⟩
  let second := first.after ((Setting.standard .standard).run 0 define 0)
  second.after ((Setting.standard .standard).callValue (.closure loop) [])

theorem looped_reached : Relation.ReflTransGen (Step True) ⟨.empty, []⟩ looped := by
  have alone : Step True ⟨.empty, []⟩ ⟨(Store.empty.newScope (Ordered.ofList []) none).2, []⟩ :=
    .alone trivial (List.forall_mem_nil _)
  refine ((Relation.ReflTransGen.single alone).tail (.evaluate .standard 0 ?_ ?_)).tail
    (.call .standard ?_ (List.forall_mem_nil _))
  · refine .apply (.word _ _) (List.forall_mem_cons.2 ⟨.word _ _, List.forall_mem_singleton.2 ?_⟩) _
    exact .apply (.word _ _) (List.forall_mem_singleton.2 (.word _ _)) _
  · exact Nat.zero_lt_one
  · exact List.mem_cons_self

/-- The scope of the call lies in the one that binds the function, which is found from there.  In a
workspace, the program and the call in it are given the third and fourth scope, and the second is
on neither chain. -/
theorem scopes_wellNested_looped :
    ((looped.store.bindings 0).find? "f" = some (.closure loop) ∧
      looped.store.Ancestry 1 [1, 0] ∧ looped.store.Search "f" 1 (some (.closure loop))) ∧
    let w := (Workspace.new (.standard .standard) 0 ⟨true, .plain, none⟩ false).use
      (.run ["fun(1)()"])
    w.store.Ancestry 3 [3, 2, 0] ∧ (w.store.chain 3).getLast? = some w.globalScope := by
  obtain ⟨nested, -⟩ := scopes_wellNested.1 looped looped_reached
  obtain ⟨nested', -, ends⟩ := scopes_wellNested.2 .standard 0 ⟨true, .plain, none⟩ false _ _
    (.use .start (.run ["fun(1)()"]))
  refine ⟨⟨rfl, (nested.chain 1 _).2 rfl, (nested.lookup 1 "f" _).2 rfl⟩, ?_, ends 3 ?_⟩
  · exact (nested'.chain 3 _).2 (by decide +kernel)
  · decide +kernel

end Host

end EggLanguage
