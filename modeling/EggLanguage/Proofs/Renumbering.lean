/-
# EggLanguage.Proofs.Renumbering -- evaluation up to spans and numbers

Scopes and functions are numbered as they are made, so the numbers depend on what was made
before.  A `Renumbering` says which scopes and functions of two stores correspond, and
`Renumbering.Stores` that two stores are the same as far as the scopes that correspond
reach.  Trees that differ in spans only, evaluated in scopes that correspond, evaluate in
step (`Renumbering.simulates`).

The worlds are the numbers of scopes that were made since the comparison began.
-/
import Mathlib.Order.Nat
import EggLanguage.Proofs.Bodies
import EggLanguage.Proofs.Programs
import EggLanguage.Proofs.UpToSpans

namespace EggLanguage

set_option autoImplicit false

namespace Expr

mutual

/-- The nodes of a program are programs. -/
theorem WellFormed.node : ∀ {e x : Expr}, e.WellFormed → x ∈ e.nodes → x.WellFormed
  | literal _ _, _, formed, node => by
      cases List.mem_singleton.1 node
      exact formed
  | word _ _, _, formed, node => by
      cases List.mem_singleton.1 node
      exact formed
  | apply _ _ _, _, formed, node => by
      rcases List.mem_cons.1 node with rfl | node
      · exact formed
      · rcases List.mem_append.1 node with node | node
        · exact formed.1.node node
        · exact AreWellFormed.node formed.2 node
  | function _ _ _ _ _ _, _, formed, _ => formed.elim
  | abstract, _, formed, _ => formed.elim

theorem AreWellFormed.node : ∀ {es : List Expr} {x : Expr}, AreWellFormed es → x ∈ nodesOfArgs es →
    x.WellFormed
  | [], _, _, node => by cases node
  | _ :: _, _, formed, node => by
      rcases List.mem_append.1 node with node | node
      · exact formed.1.node node
      · exact AreWellFormed.node formed.2 node

end

end Expr

/-- What is logged is no matter of stores. -/
theorem Workspace.logging_inStep {W : Type} [Preorder W] {c : Comparison W} {world : W}
    (w : Workspace) (e : Expr) :
    Eval.InStep c world (fun _ _ _ => True) (w.logging e) (w.logging e) := by
  unfold logging
  split
  · cases e.text w.setting.limits.height with
    | ok written => exact .pure trivial
    | error c => exact .crash c
  · exact .pure trivial

/-! ## Bindings -/

namespace Ordered

variable {α β : Type}

/-- Names that correspond in the same order, bound to values that correspond. -/
def Matched (names : String → String → Prop) (R : α → β → Prop) (left : Ordered α)
    (right : Ordered β) : Prop :=
  left.Forall₂ (fun bound bound' => names bound.1 bound'.1 ∧ R bound.2 bound'.2) right

namespace Matched

variable {names : String → String → Prop} {R : α → β → Prop} {left : Ordered α}
  {right : Ordered β}

theorem imp {S : α → β → Prop} (implied : ∀ a b, R a b → S a b) (matched : Matched names R left right) :
    Matched names S left right :=
  List.Forall₂.imp (fun _ _ both => ⟨both.1, implied _ _ both.2⟩) matched

section

variable (unique : ∀ a a' b b', names a a' → names b b' → (a = b ↔ a' = b')) {name name' : String}
  (named : names name name')

include unique named

theorem find? (matched : Matched names R left right) :
    Option.Rel R (left.find? name) (right.find? name') := by
  induction matched with
  | nil => exact .none
  | @cons bound bound' rest rest' first _ ih =>
      have same := unique _ _ _ _ first.1 named
      rw [Ordered.find?, Ordered.find?]
      by_cases here : bound.1 = name
      · rw [if_pos here, if_pos (same.1 here)]
        exact .some first.2
      · rw [if_neg here, if_neg (mt same.2 here)]
        exact ih

theorem put (matched : Matched names R left right) {a : α} {b : β} (related : R a b) :
    Matched names R (left.put name a) (right.put name' b) := by
  induction matched with
  | nil => exact .cons ⟨named, related⟩ .nil
  | @cons bound bound' rest rest' first more ih =>
      have same := unique _ _ _ _ first.1 named
      rw [Ordered.put, Ordered.put]
      by_cases here : bound.1 = name
      · rw [if_pos here, if_pos (same.1 here)]
        exact .cons ⟨first.1, related⟩ more
      · rw [if_neg here, if_neg (mt same.2 here)]
        exact .cons first ih

end

theorem ofList_zip (unique : ∀ a a' b b', names a a' → names b b' → (a = b ↔ a' = b'))
    {given given' : List String} (named : given.Forall₂ names given') {values : List α}
    {values' : List β} (pairs : values.Forall₂ R values') :
    Matched names R (ofList (given.zip values)) (ofList (given'.zip values')) := by
  have bindAll : ∀ {left : Ordered α} {right : Ordered β}, Matched names R left right →
      Matched names R (putAll (given.zip values) left) (putAll (given'.zip values') right) := by
    induction named generalizing values values' with
    | nil => exact id
    | cons name _ ih =>
        cases pairs with
        | nil => exact id
        | cons first rest => exact fun matched => ih rest (matched.put unique name first)
  exact bindAll .nil

end Matched

/-- The same names in the same order, bound to values that correspond. -/
def Paired (R : α → β → Prop) (left : Ordered α) (right : Ordered β) : Prop :=
  left.Forall₂ (fun bound bound' => bound.1 = bound'.1 ∧ R bound.2 bound'.2) right

namespace Paired

variable {R : α → β → Prop} {left : Ordered α} {right : Ordered β}

theorem imp {S : α → β → Prop} (implied : ∀ a b, R a b → S a b) (paired : Paired R left right) :
    Paired S left right :=
  Matched.imp implied paired

theorem eq_unique (a a' b b' : String) (same : a = a') (same' : b = b') : a = b ↔ a' = b' := by
  rw [same, same']

theorem find? (paired : Paired R left right) (name : String) :
    Option.Rel R (left.find? name) (right.find? name) :=
  Matched.find? eq_unique rfl paired

theorem put (paired : Paired R left right) (name : String) {a : α} {b : β} (related : R a b) :
    Paired R (left.put name a) (right.put name b) :=
  Matched.put eq_unique rfl paired related

theorem ofList_zip (names : List String) {values : List α} {values' : List β}
    (pairs : values.Forall₂ R values') :
    Paired R (ofList (names.zip values)) (ofList (names.zip values')) :=
  Matched.ofList_zip eq_unique (List.forall₂_refl names) pairs

end Paired

end Ordered

/-- Searches through lists that correspond find what corresponds. -/
theorem forall₂_findSome? {α α' β β' : Type} {R : α → α' → Prop} {S : β → β' → Prop}
    {f : α → Option β} {f' : α' → Option β'} (found : ∀ a a', R a a' → Option.Rel S (f a) (f' a'))
    {as : List α} {as' : List α'} (each : as.Forall₂ R as') :
    Option.Rel S (as.findSome? f) (as'.findSome? f') := by
  induction each with
  | nil => exact .none
  | @cons a a' as as' first _ ih =>
      have result := found a a' first
      rw [List.findSome?_cons, List.findSome?_cons]
      generalize f a = left at result
      generalize f' a' = right at result
      cases result with
      | none => exact ih
      | some related => exact .some related

/-! ## Stores -/

/-- Which scopes and functions of two stores correspond.  The stores had `size` and `size'`
scopes and had `printed` and `printed'` when the comparison began; new scopes correspond to
each other. -/
structure Renumbering where
  scopes : Nat → ScopeId → ScopeId → Prop
  functions : Nat → Nat → Prop
  size : Nat
  size' : Nat
  printed : List Value
  printed' : List Value
  later : ∀ {n m i i'}, n ≤ m → scopes n i i' → scopes m i i'
  new : ∀ n, scopes (n + 1) (size + n) (size' + n)
  old : ∀ {n i i'}, scopes (n + 1) i i' → i ≠ size + n → scopes n i i'
  scopes_unique : ∀ {n i i' j j' : Nat}, scopes n i i' → scopes n j j' → (i = j ↔ i' = j')
  functions_unique : ∀ {a a' b b'}, functions a a' → functions b b' → (a = b ↔ a' = b')
  /-- Names are looked up alike: numbers agree, or only scopes that exist correspond. -/
  aligned : (∀ n i i', scopes n i i' → i = i') ∨
    ∀ n i i' : Nat, scopes n i i' → i < size + n ∧ i' < size' + n

namespace Renumbering

variable (r : Renumbering)

/-- The functions that a tree holds correspond to themselves. -/
def Fixes (e : Expr) : Prop :=
  ∀ identity parameters body scope dialect span,
    .function identity parameters body scope dialect span ∈ e.nodes →
      r.functions identity identity ∧ ∀ n, r.scopes n scope scope

structure Closures (n : Nat) (f f' : Closure) : Prop where
  identity : r.functions f.identity f'.identity
  parameters : f.parameters = f'.parameters
  body : f.body.bare = f'.body.bare
  fixed : r.Fixes f.body
  scope : r.scopes n f.scope f'.scope
  dialect : f.dialect = f'.dialect

structure Tasks (n : Nat) (t t' : Task) : Prop where
  dialect : t.dialect = t'.dialect
  expr : t.expr.bare = t'.expr.bare
  fixed : r.Fixes t.expr
  scope : r.scopes n t.scope t'.scope

/-- Scopes are younger than the scopes around them. -/
def Older (n : Nat) (s s' : Store) : Prop :=
  ∀ i i', r.scopes n i i' →
    (∀ p, s.parent? i = some p → p < i) ∧ ∀ p', s'.parent? i' = some p' → p' < i'

/-- Stores that are the same up to numbers and spans, as far as corresponding scopes
reach. -/
structure Stores (n : Nat) (s s' : Store) : Prop where
  size : s.scopes.size = r.size + n
  size' : s'.scopes.size = r.size' + n
  functions : ∀ k, r.functions (s.functions + k) (s'.functions + k)
  bindings : ∀ i i', r.scopes n i i' →
    (s.bindings i).Paired (Value.Paired (r.Closures n)) (s'.bindings i')
  parents : ∀ i i', r.scopes n i i' → Option.Rel (r.scopes n) (s.parent? i) (s'.parent? i')
  aligned : (∀ n i i', r.scopes n i i' → i = i') ∨ r.Older n s s'
  printed : ∃ made made', s.printed.toList = r.printed ++ made ∧
    s'.printed.toList = r.printed' ++ made' ∧ made.Forall₂ (Value.Paired (r.Closures n)) made'

/-- Spans and places do not count. -/
def correspondence : Correspondence Nat where
  stores := r.Stores
  places := Place.anywhere
  unknown := trivial
  closures := r.Closures
  tasks := r.Tasks
  spans _ _ := True

variable {r} {n : Nat} {s s' : Store}

theorem Closures.later {m : Nat} (le : n ≤ m) {f f' : Closure} (related : r.Closures n f f') :
    r.Closures m f f' :=
  { related with scope := r.later le related.scope }

theorem Tasks.later {m : Nat} (le : n ≤ m) {t t' : Task} (related : r.Tasks n t t') :
    r.Tasks m t t' :=
  { related with scope := r.later le related.scope }

theorem Fixes.node {e x : Expr} (fixed : r.Fixes e) (inside : x ∈ e.nodes) : r.Fixes x :=
  fun _ _ _ _ _ _ node => fixed _ _ _ _ _ _ (Expr.mem_nodes_trans node inside)

/-- Scopes correspond only if both exist or none does. -/
theorem Stores.exists_iff (stores : r.Stores n s s') {i i' : ScopeId} (related : r.scopes n i i') :
    i < s.scopes.size ↔ i' < s'.scopes.size := by
  have beyond : ∀ k, i = r.size + n + k ↔ i' = r.size' + n + k := fun k => by
    rw [Nat.add_assoc, Nat.add_assoc]
    exact r.scopes_unique (r.later (Nat.le_add_right_of_le (Nat.le_add_right n k)) related)
      (r.new (n + k))
  rw [stores.size, stores.size', ← Nat.not_le, ← Nat.not_le, not_iff_not]
  constructor
  · intro outside
    obtain ⟨k, same⟩ := Nat.exists_eq_add_of_le outside
    exact Nat.le.intro ((beyond k).1 same).symm
  · intro outside
    obtain ⟨k, same⟩ := Nat.exists_eq_add_of_le outside
    exact Nat.le.intro ((beyond k).2 same).symm

/-! ### Names -/

theorem Stores.chainWithin (stores : r.Stores n s s') (length length' : Nat) {i i' : ScopeId}
    (related : r.scopes n i i')
    (room : length = length' ∨ r.Older n s s' ∧ i < length ∧ i' < length') :
    (s.chainWithin length i).Forall₂ (r.scopes n) (s'.chainWithin length' i') := by
  induction length generalizing length' i i' with
  | zero =>
      obtain rfl | ⟨-, none, -⟩ := room
      · exact .nil
      · exact absurd none (Nat.not_lt_zero i)
  | succ length ih =>
      cases length' with
      | zero =>
          obtain same | ⟨-, -, none⟩ := room
          · exact absurd same (Nat.succ_ne_zero length)
          · exact absurd none (Nat.not_lt_zero i')
      | succ length' =>
          rw [Store.chainWithin, Store.chainWithin]
          refine .cons related ?_
          have parents := stores.parents i i' related
          generalize around : s.parent? i = parent at parents
          generalize around' : s'.parent? i' = parent' at parents
          cases parents with
          | none => exact .nil
          | some outer =>
              refine ih length' outer ?_
              obtain same | ⟨older, fits, fits'⟩ := room
              · exact .inl (Nat.succ.inj same)
              · have below := Nat.lt_of_lt_of_le ((older i i' related).1 _ around)
                  (Nat.le_of_lt_succ fits)
                have below' := Nat.lt_of_lt_of_le ((older i i' related).2 _ around')
                  (Nat.le_of_lt_succ fits')
                exact .inr ⟨older, below, below'⟩

theorem Stores.chain (stores : r.Stores n s s') {i i' : ScopeId} (related : r.scopes n i i') :
    (s.chain i).Forall₂ (r.scopes n) (s'.chain i') := by
  refine stores.chainWithin _ _ related ?_
  obtain same | older := stores.aligned
  · exact .inl (congrArg (· + 1) (same n i i' related))
  · exact .inr ⟨older, Nat.lt_succ_self i, Nat.lt_succ_self i'⟩

theorem Stores.lookup? (stores : r.Stores n s s') {i i' : ScopeId} (related : r.scopes n i i')
    (name : String) :
    Option.Rel (Value.Paired (r.Closures n)) (s.lookup? i name) (s'.lookup? i' name) :=
  forall₂_findSome? (fun j j' inner => (stores.bindings j j' inner).find? name)
    (stores.chain related)

/-! ### Changes -/

theorem Stores.bind (stores : r.Stores n s s') {i i' : ScopeId} (related : r.scopes n i i')
    (name : String) {v v' : Value} (values : v.Paired (r.Closures n) v') :
    r.Stores n (s.bind i name v) (s'.bind i' name v') where
  size := by rw [Store.size_bind, stores.size]
  size' := by rw [Store.size_bind, stores.size']
  functions := stores.functions
  bindings j j' other := by
    have same := and_congr (r.scopes_unique other related) (stores.exists_iff related)
    rw [Store.bindings_bind, Store.bindings_bind]
    by_cases bound : j = i ∧ i < s.scopes.size
    · rw [if_pos bound, if_pos (same.1 bound)]
      exact (stores.bindings j j' other).put name values
    · rw [if_neg bound, if_neg (mt same.2 bound)]
      exact stores.bindings j j' other
  parents j j' other := by
    rw [Store.parent?_bind, Store.parent?_bind]
    exact stores.parents j j' other
  aligned := stores.aligned.imp_right fun older j j' other => by
    rw [Store.parent?_bind, Store.parent?_bind]
    exact older j j' other
  printed := stores.printed

theorem Stores.newScope (stores : r.Stores n s s') {i i' : ScopeId} (related : r.scopes n i i')
    {given given' : Ordered Value} (paired : given.Paired (Value.Paired (r.Closures n)) given') :
    r.Stores (n + 1) (s.newScope given (some i)).2 (s'.newScope given' (some i')).2 := by
  have le : n ≤ n + 1 := Nat.le_succ n
  have values : ∀ v v' : Value, v.Paired (r.Closures n) v' → v.Paired (r.Closures (n + 1)) v' :=
    fun v v' pair => pair.imp fun f f' => Closures.later le
  have new := r.new n
  rw [← stores.size, ← stores.size'] at new
  -- A scope that corresponds to another is the new one on both sides, or on neither.
  have isNew : ∀ {j j'}, r.scopes (n + 1) j j' →
      (j = s.scopes.size ∧ j' = s'.scopes.size) ∨
        (j ≠ s.scopes.size ∧ j' ≠ s'.scopes.size ∧ r.scopes n j j') := by
    intro j j' other
    have same := r.scopes_unique other new
    by_cases here : j = s.scopes.size
    · exact .inl ⟨here, same.1 here⟩
    · exact .inr ⟨here, fun there => here (same.2 there), r.old other (stores.size ▸ here)⟩
  refine ⟨?_, ?_, stores.functions, fun j j' other => ?_, fun j j' other => ?_, ?_, ?_⟩
  · rw [Store.size_newScope, stores.size, Nat.add_assoc]
  · rw [Store.size_newScope, stores.size', Nat.add_assoc]
  · rw [Store.bindings_newScope, Store.bindings_newScope]
    obtain ⟨here, there⟩ | ⟨other', other'', known⟩ := isNew other
    · rw [if_pos here, if_pos there]
      exact paired.imp values
    · rw [if_neg other', if_neg other'']
      exact (stores.bindings j j' known).imp values
  · rw [Store.parent?_newScope, Store.parent?_newScope]
    obtain ⟨here, there⟩ | ⟨other', other'', known⟩ := isNew other
    · rw [if_pos here, if_pos there]
      exact .some (r.later le related)
    · rw [if_neg other', if_neg other'']
      have parents := stores.parents j j' known
      generalize s.parent? j = parent at parents
      generalize s'.parent? j' = parent' at parents
      cases parents with
      | none => exact .none
      | some outer => exact .some (r.later le outer)
  · obtain same | older := stores.aligned
    · exact .inl same
    · refine r.aligned.imp_right fun inside j j' other => ?_
      rw [Store.parent?_newScope, Store.parent?_newScope]
      obtain ⟨here, there⟩ | ⟨other', other'', known⟩ := isNew other
      · have inside := inside n i i' related
        rw [← stores.size, ← stores.size'] at inside
        rw [if_pos here, if_pos there, here, there]
        exact ⟨fun p same => Option.some.inj same ▸ inside.1,
          fun p' same => Option.some.inj same ▸ inside.2⟩
      · rw [if_neg other', if_neg other'']
        exact older j j' known
  · obtain ⟨made, made', split, split', pairs⟩ := stores.printed
    exact ⟨made, made', split, split', pairs.imp values⟩

theorem Stores.print (stores : r.Stores n s s') {v v' : Value}
    (values : v.Paired (r.Closures n) v') : r.Stores n (s.print v) (s'.print v') where
  size := stores.size
  size' := stores.size'
  functions := stores.functions
  bindings := stores.bindings
  parents := stores.parents
  aligned := stores.aligned
  printed := by
    obtain ⟨made, made', split, split', pairs⟩ := stores.printed
    refine ⟨made ++ [v], made' ++ [v'], ?_, ?_, List.rel_append pairs (.cons values .nil)⟩
    · rw [Store.print, Array.toList_push, split, List.append_assoc]
    · rw [Store.print, Array.toList_push, split', List.append_assoc]

theorem Stores.newFunction (stores : r.Stores n s s') (parameters : List String) {body body' : Expr}
    {i i' : ScopeId} {dialect dialect' : DialectId}
    (task : r.Tasks n ⟨dialect, body, i⟩ ⟨dialect', body', i'⟩) :
    r.Stores n (s.newFunction parameters body i dialect).2
        (s'.newFunction parameters body' i' dialect').2 ∧
      (s.newFunction parameters body i dialect).1.Paired (r.Closures n)
        (s'.newFunction parameters body' i' dialect').1 := by
  refine ⟨{ stores with functions := fun k => ?_ }, .closure ?_⟩
  · show r.functions (s.functions + 1 + k) (s'.functions + 1 + k)
    rw [Nat.add_assoc, Nat.add_assoc]
    exact stores.functions (1 + k)
  · exact ⟨stores.functions 0, rfl, task.expr, task.fixed, task.scope, task.dialect⟩

/-! ## Evaluation -/

theorem fixes_argument {operator e : Expr} {args : List Expr} {span : Span}
    (fixed : r.Fixes (.apply operator args span)) (member : e ∈ args) : r.Fixes e :=
  fixed.node (Expr.mem_nodes_argument operator member span)

theorem tasks_of_forall₂ {args args' : List Expr} {dialect : DialectId} {scope scope' : ScopeId}
    (fixed : ∀ e ∈ args, r.Fixes e) (related : r.scopes n scope scope')
    (each : args.Forall₂ (fun e e' => e.bare = e'.bare) args') :
    args.Forall₂ (fun e e' => r.Tasks n ⟨dialect, e, scope⟩ ⟨dialect, e', scope'⟩) args' := by
  induction each with
  | nil => exact .nil
  | cons first _ ih =>
      rw [List.forall_mem_cons] at fixed
      exact .cons ⟨rfl, first, fixed.1, related⟩ (ih fixed.2)

/-- Evaluation under the standard forms keeps to a renumbering. -/
theorem simulates (r : Renumbering) (limits : Limits) :
    r.correspondence.Simulates (Setting.standard limits) (Setting.standard limits) where
  limits := rfl
  closures_later le related := Closures.later le related
  tasks_later le task := Tasks.later le task
  settle _ _ := trivial
  bringTo _ _ := trivial
  identity left right := r.functions_unique left.identity right.identity
  arity related := congrArg List.length related.parameters
  print values := .step fun _ _ stores => ⟨_, le_rfl, stores.print values, trivial⟩
  enter := by
    intro n f f' values values' related _ pairs
    rw [← related.parameters]
    refine .step fun s s' stores => ⟨n + 1, Nat.le_succ n, ?_, ?_⟩
    · exact stores.newScope related.scope (.ofList_zip f.parameters pairs)
    · refine ⟨related.dialect, related.body, related.fixed, ?_⟩
      have new := r.new n
      rw [← stores.size, ← stores.size'] at new
      exact new
  unfold := by
    rintro n ⟨dialect, e, scope⟩ ⟨dialect', e', scope'⟩ ⟨rfl, equal, fixed, related⟩
    change e.bare = e'.bare at equal
    change r.Fixes e at fixed
    change r.scopes n scope scope' at related
    cases Expr.alike_of_bare_eq equal with
    | literal c span span' => exact .literal c
    | word name span span' =>
        exact .word trivial (.lookup fun s s' stores => ⟨stores.lookup? related name, fun _ => rfl⟩)
    | function identity parameters home dialect span span' bodies =>
        have known := fixed _ _ _ _ _ _ (Expr.mem_nodes_self _)
        refine .function ⟨known.1, rfl, bodies, fixed.node ?_, known.2 n, rfl⟩
        exact List.mem_cons_of_mem _ (Expr.mem_nodes_self _)
    | @apply operator operator' args args' span span' applied each =>
        have knownOperator := fixed.node (Expr.mem_nodes_operator operator args span)
        have tasks : args.Forall₂
            (fun a a' => r.Tasks n ⟨dialect, a, scope⟩ ⟨dialect, a', scope'⟩) args' :=
          tasks_of_forall₂ (fun a member => fixes_argument fixed member) related each
        refine r.correspondence.unfolds_apply rfl rfl trivial
          (Dialect.form?_eq_of_bare_eq applied Dialect.standard) ⟨rfl, applied, knownOperator, related⟩
          tasks fun special _ _ => ?_
        refine Correspondence.arguments_of_bare_eq (fun _ _ => trivial) special
          (fun a a' task => Tasks.expr task) tasks (fun later name v v' le values => ?_)
          fun parameters body body' task => ?_
        · exact .step fun s s' stores =>
            ⟨later, le_rfl, stores.bind (r.later le related) name values, trivial⟩
        · exact .step fun s s' stores => ⟨n, le_rfl, stores.newFunction parameters task⟩
    | abstract => exact .abstract

/-! ## Programs -/

theorem Stores.newSource (stores : r.Stores n s s') (text text' : String) :
    r.Stores n (s.newSource text).2 (s'.newSource text').2 :=
  ⟨stores.size, stores.size', stores.functions, stores.bindings, stores.parents, stores.aligned,
    stores.printed⟩

/-- A program holds no functions. -/
theorem fixes_of_wellFormed (r : Renumbering) {e : Expr} (formed : e.WellFormed) : r.Fixes e :=
  fun _ _ _ _ _ _ node => (formed.node node).elim

/-- Texts that are read as trees with one bare tree, or are refused alike. -/
def ReadAlike (nesting : Nat) (text text' : String) : Prop :=
  ∀ identity identity', EndAlike Place.anywhere (fun e e' => e.bare = e'.bare)
    (Expr.parse nesting ⟨identity, text⟩) (Expr.parse nesting ⟨identity', text'⟩)

/-- Two workspaces in which programs run alike, as far as they do not depend on the store. -/
structure Hosts (r : Renumbering) (limits : Limits) (w w' : Workspace) : Prop where
  setting : w.setting = .standard limits
  setting' : w'.setting = .standard limits
  dialect : w.dialect = w'.dialect
  verbose : w.verbose = w'.verbose
  globalScope : ∀ n, r.scopes n w.globalScope w'.globalScope

variable {limits : Limits} {w w' : Workspace}

theorem Hosts.reading_inStep (hosts : r.Hosts limits w w') {text text' : String}
    (alike : ReadAlike limits.nesting text text') :
    Eval.InStep r.correspondence.toComparison n
      (fun _ e e' => e.bare = e'.bare ∧ e.WellFormed) (w.reading text) (w'.reading text') := by
  have numbered : Eval.InStep r.correspondence.toComparison n
      (fun _ (source source' : Source) => source.text = text ∧ source'.text = text')
      (Eval.step fun s => s.newSource text) (Eval.step fun s => s.newSource text') :=
    .step fun s s' stores => ⟨n, le_rfl, stores.newSource text text', rfl, rfl⟩
  unfold Workspace.reading
  rw [hosts.setting, hosts.setting']
  refine numbered.bind fun later source source' _ same => .ofExcept ?_
  obtain ⟨identity, _⟩ := source
  obtain ⟨identity', _⟩ := source'
  obtain ⟨rfl, rfl⟩ := same
  exact (alike identity identity').and_left fun e parsed => Expr.wellFormed_of_parse parsed

theorem Hosts.logging_inStep (hosts : r.Hosts limits w w') {e e' : Expr}
    (equal : e.bare = e'.bare) :
    Eval.InStep r.correspondence.toComparison n (fun _ _ _ => True) (w.logging e)
      (w'.logging e') := by
  have same : w.logging e = w'.logging e' := by
    unfold Workspace.logging
    rw [hosts.setting, hosts.setting', hosts.verbose, Expr.text_eq_of_bare_eq equal]
  rw [same]
  exact Workspace.logging_inStep w' e'

/-- Texts that are read alike run in step. -/
theorem Hosts.program_inStep (hosts : r.Hosts limits w w') {text text' : String}
    (alike : ReadAlike limits.nesting text text') :
    Eval.InStep r.correspondence.toComparison n r.correspondence.values (w.program text .fresh)
      (w'.program text' .fresh) := by
  unfold Workspace.program
  refine (hosts.reading_inStep alike).bind fun n₁ e e' _ ⟨equal, formed⟩ => ?_
  have entered : Eval.InStep r.correspondence.toComparison n₁ r.scopes (w.scopeOf .fresh)
      (w'.scopeOf .fresh) := by
    refine .step fun s s' stores => ⟨n₁ + 1, Nat.le_succ n₁, ?_, ?_⟩
    · exact stores.newScope (hosts.globalScope n₁) .nil
    · have new := r.new n₁
      rw [← stores.size, ← stores.size'] at new
      exact new
  refine entered.bind fun n₂ scope scope' _ related => ?_
  refine (hosts.logging_inStep equal).bind fun n₃ _ _ le _ => ?_
  rw [hosts.setting, hosts.setting', hosts.dialect]
  have task : r.Tasks n₃ ⟨w'.dialect, e, scope⟩ ⟨w'.dialect, e', scope'⟩ :=
    ⟨rfl, equal, r.fixes_of_wellFormed formed, r.later le related⟩
  exact (r.simulates limits).evaluate limits.depth task

end Renumbering

/-- A failure is stated by its cause alone. -/
theorem Workspace.reported_alike {closures : Closure → Closure → Prop}
    {result result' : Except Stop Value}
    (ends : EndAlike Place.anywhere (Value.Paired closures) result result') :
    EndAlike Place.anywhere (Value.Paired closures) (reported result) (reported result') := by
  cases ends with
  | ok related => exact .ok related
  | error stops =>
      cases stops with
      | @failure f f' cause placed =>
          have text : f.text = f'.text := by rw [Failure.text, Failure.text, cause]
          rw [reported, reported, text]
          exact .ok (.constant _)
      | crash c => exact .error (.crash c)

end EggLanguage
