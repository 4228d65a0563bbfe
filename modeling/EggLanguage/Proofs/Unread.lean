/-
# EggLanguage.Proofs.Unread -- bindings that nobody reads

A name that a program does not read may be bound to anything, in any scope, or not at all: the
program ends the same way and prints the same, and the stores it leaves differ in the bindings of
that name only (`Setting.evaluate_unread`).  No function that the program can call may read the name
either.

What evaluation adds does not extend the reach: functions made by it are made from expressions that
it evaluates, and hold scopes that were in reach or that it made.  This is the invariant
(`Store.Avoids`) beside which two evaluations run in step (`Correspondence.avoiding_simulates`).
-/
import Mathlib.Order.Nat
import EggLanguage.Proofs.Chains
import EggLanguage.Proofs.Reads
import EggLanguage.Proofs.Simulation

namespace EggLanguage

set_option autoImplicit false

/-! ## Stores that differ in one name -/

namespace Ordered

variable {α : Type} {name other : String}

/-- The bindings of all other names. -/
def without (name : String) (bindings : Ordered α) : Ordered α :=
  bindings.filter fun bound => bound.1 ≠ name

theorem without_cons (bound : String) (value : α) (rest : Ordered α) :
    without name ((bound, value) :: rest) =
      if bound = name then without name rest else (bound, value) :: without name rest := by
  by_cases hidden : bound = name <;> simp [without, hidden]

theorem find?_without (different : other ≠ name) (bindings : Ordered α) :
    find? other (without name bindings) = find? other bindings := by
  induction bindings with
  | nil => rfl
  | cons pair rest ih =>
      obtain ⟨bound, value⟩ := pair
      rw [without_cons, find?]
      by_cases hidden : bound = name
      · have passed : bound ≠ other := fun same => different (same.symm.trans hidden)
        rw [if_pos hidden, if_neg passed, ih]
      · rw [if_neg hidden, find?, ih]

theorem without_put_self (value : α) (bindings : Ordered α) :
    without name (put name value bindings) = without name bindings := by
  induction bindings with
  | nil => rw [put, without_cons, if_pos rfl]
  | cons pair rest ih =>
      obtain ⟨bound, old⟩ := pair
      by_cases hidden : bound = name
      · rw [put, if_pos hidden, without_cons, without_cons, if_pos hidden, if_pos hidden]
      · rw [put, if_neg hidden, without_cons, without_cons, if_neg hidden, if_neg hidden, ih]

theorem without_put (different : other ≠ name) (value : α) (bindings : Ordered α) :
    without name (put other value bindings) = put other value (without name bindings) := by
  induction bindings with
  | nil =>
      rw [put, without_cons, if_neg different]
      rfl
  | cons pair rest ih =>
      obtain ⟨bound, old⟩ := pair
      by_cases here : bound = other
      · have shown : bound ≠ name := here ▸ different
        rw [put, if_pos here, without_cons, without_cons, if_neg shown, if_neg shown, put, if_pos here]
      · rw [put, if_neg here, without_cons, without_cons, ih]
        split
        · rfl
        · rw [put, if_neg here]

end Ordered

/-- The stores are the same but for the bindings of one name, in whatever scopes. -/
structure Store.AlikeBut (name : String) (s s' : Store) : Prop where
  size : s.scopes.size = s'.scopes.size
  parents : ∀ i, s.parent? i = s'.parent? i
  bindings : ∀ i, Ordered.without name (s.bindings i) = Ordered.without name (s'.bindings i)
  printed : s.printed = s'.printed
  functions : s.functions = s'.functions
  sources : s.sources = s'.sources

namespace Store.AlikeBut

variable {name : String} {s s' : Store} (alike : s.AlikeBut name s')

include alike

theorem find?_eq {other : String} (different : other ≠ name) (i : ScopeId) :
    (s.bindings i).find? other = (s'.bindings i).find? other := by
  rw [← Ordered.find?_without different, alike.bindings i, Ordered.find?_without different]

theorem lookup?_eq {other : String} (different : other ≠ name) (i : ScopeId) :
    s.lookup? i other = s'.lookup? i other := by
  rw [lookup?, lookup?, chain, chain, chainWithin_congr alike.parents]
  exact congrArg (List.findSome? · _) (funext fun j => alike.find?_eq different j)

/-- The name itself may be bound, too. -/
theorem bind (scope : ScopeId) (bound : String) (v : Value) :
    (s.bind scope bound v).AlikeBut name (s'.bind scope bound v) where
  size := by rw [size_bind, size_bind, alike.size]
  parents i := by rw [parent?_bind, parent?_bind, alike.parents i]
  bindings i := by
    rw [bindings_bind, bindings_bind, alike.size]
    split
    · by_cases same : bound = name
      · rw [same, Ordered.without_put_self, Ordered.without_put_self, alike.bindings i]
      · rw [Ordered.without_put same, Ordered.without_put same, alike.bindings i]
    · exact alike.bindings i
  printed := alike.printed
  functions := alike.functions
  sources := alike.sources

theorem newScope (given : Ordered Value) (parent : Option ScopeId) :
    (s.newScope given parent).2.AlikeBut name (s'.newScope given parent).2 where
  size := by rw [size_newScope, size_newScope, alike.size]
  parents i := by rw [parent?_newScope, parent?_newScope, alike.size, alike.parents i]
  bindings i := by
    rw [bindings_newScope, bindings_newScope, alike.size]
    split
    · rfl
    · exact alike.bindings i
  printed := alike.printed
  functions := alike.functions
  sources := alike.sources

theorem print (v : Value) : (s.print v).AlikeBut name (s'.print v) :=
  { alike with printed := congrArg (Array.push · v) alike.printed }

end Store.AlikeBut

/-- Any change of one binding of a name is a change in that name only. -/
theorem Store.alikeBut_bind (s : Store) (scope : ScopeId) (name : String) (v : Value) :
    s.AlikeBut name (s.bind scope name v) where
  size := (size_bind _ _ _ _).symm
  parents i := (parent?_bind _ _ _ _ _).symm
  bindings i := by
    rw [bindings_bind]
    split
    · rw [Ordered.without_put_self]
    · rfl
  printed := rfl
  functions := rfl
  sources := rfl

/-! ## What evaluation comes to -/

section

variable (name : String) (r : Region)

/-- The expression does not read the name, and no function beyond the region stands in it. -/
structure Expr.Avoids (e : Expr) : Prop where
  unread : name ∉ e.reads
  standing : ∀ f : Closure, f.StandsIn e → r.functions f

structure Closure.Avoids (f : Closure) : Prop where
  body : f.body.Avoids name r
  scope : r.scopes f.scope

def Value.Avoids (v : Value) : Prop :=
  ∀ f, v = .closure f → f.Avoids name r

/-- From the scopes of the region no search for another name leads out of the region.  All new
scopes will belong to it. -/
structure Store.Avoids (s : Store) : Prop where
  outward : ∀ i p, r.scopes i → s.parent? i = some p → r.scopes p
  bound : ∀ i other v, r.scopes i → other ≠ name → (s.bindings i).find? other = some v →
    v.Avoids name r
  new : ∀ i, s.scopes.size ≤ i → r.scopes i

end

section

variable {name : String} {r : Region}

theorem Closure.Avoids.value {f : Closure} (avoids : f.Avoids name r) :
    (Value.closure f).Avoids name r := by
  rintro _ ⟨⟩
  exact avoids

theorem Expr.Avoids.operator {operator : Expr} {args : List Expr} {span : Span}
    (avoids : (Expr.apply operator args span).Avoids name r) (plain : operator.special? = none) :
    operator.Avoids name r where
  unread read := avoids.unread <| by
    rw [reads, plain]
    exact List.mem_append_left _ read
  standing f stands := avoids.standing f (stands.of_node (mem_nodes_operator operator args span))

/-- An argument avoids the name if what it reads the application reads. -/
theorem Expr.Avoids.argument {operator a : Expr} {args : List Expr} {span : Span}
    (avoids : (Expr.apply operator args span).Avoids name r) (member : a ∈ args)
    (read : name ∈ a.reads → name ∈ (Expr.apply operator args span).reads) : a.Avoids name r where
  unread inArg := avoids.unread (read inArg)
  standing f stands := avoids.standing f (stands.of_node (mem_nodes_argument operator member span))

theorem Expr.Avoids.arguments {operator : Expr} {args : List Expr} {span : Span}
    (avoids : (Expr.apply operator args span).Avoids name r)
    (read : name ∈ readsOfArgs args → name ∈ (Expr.apply operator args span).reads) :
    ∀ a ∈ args, a.Avoids name r := fun a member =>
  avoids.argument member fun inArg => read (mem_readsOfArgs.2 ⟨a, member, inArg⟩)

namespace Store.Avoids

variable {s : Store} (avoids : s.Avoids name r)

include avoids

theorem chainWithin (length : Nat) {i j : ScopeId} (within : r.scopes i)
    (member : j ∈ s.chainWithin length i) : r.scopes j := by
  induction length generalizing i with
  | zero => cases member
  | succ length ih =>
      rw [Store.chainWithin] at member
      rcases List.mem_cons.1 member with rfl | further
      · exact within
      · cases around : s.parent? i with
        | none =>
            rw [around] at further
            cases further
        | some p =>
            rw [around] at further
            exact ih (avoids.outward i p within around) further

theorem lookup? {i : ScopeId} (within : r.scopes i) {other : String} (different : other ≠ name)
    {v : Value} (found : s.lookup? i other = some v) : v.Avoids name r := by
  obtain ⟨j, member, bound⟩ := List.exists_of_findSome?_eq_some found
  exact avoids.bound j other v (avoids.chainWithin (i + 1) within member) different bound

theorem bind {v : Value} (value : v.Avoids name r) (scope : ScopeId) (bound : String) :
    (s.bind scope bound v).Avoids name r where
  outward i p within around := by
    rw [parent?_bind] at around
    exact avoids.outward i p within around
  bound i other w within different found := by
    rw [bindings_bind] at found
    split at found
    · rw [Ordered.find?_put] at found
      split at found
      · cases found
        exact value
      · exact avoids.bound i other w within different found
    · exact avoids.bound i other w within different found
  new i later := by
    rw [size_bind] at later
    exact avoids.new i later

theorem newScope {given : Ordered Value} (values : ∀ bound ∈ given, bound.2.Avoids name r)
    {parent : ScopeId} (within : r.scopes parent) :
    (s.newScope given (some parent)).2.Avoids name r where
  outward i p inRegion around := by
    rw [parent?_newScope] at around
    split at around
    · cases around
      exact within
    · exact avoids.outward i p inRegion around
  bound i other w inRegion different found := by
    rw [bindings_newScope] at found
    split at found
    · exact values _ (Ordered.mem_of_find? found)
    · exact avoids.bound i other w inRegion different found
  new i later := by
    rw [size_newScope] at later
    exact avoids.new i (Nat.le_of_succ_le later)

end Store.Avoids

end

/-! ## Evaluation -/

namespace Correspondence

variable {name : String} {r : Region}

/-- The same evaluation in stores that differ in a name that it does not read. -/
def avoiding (name : String) (r : Region) : Correspondence Nat where
  stores _ s s' := s.AlikeBut name s' ∧ s.Avoids name r
  places := Eq
  unknown := rfl
  closures _ f f' := f = f' ∧ f.Avoids name r
  tasks _ t t' := t = t' ∧ t.expr.Avoids name r ∧ r.scopes t.scope
  spans := Eq

theorem avoiding_values {w : Nat} {v v' : Value} :
    (avoiding name r).values w v v' ↔ v = v' ∧ v.Avoids name r :=
  Value.Paired.same_iff

theorem eq_of_avoiding {w : Nat} {x x' : Except Stop Value}
    (ends : EndAlike Eq ((avoiding name r).values w) x x') : x = x' := by
  cases ends with
  | ok paired => exact congrArg Except.ok (avoiding_values.1 paired).1
  | error stops =>
      cases stops with
      | crash c => rfl
      | @failure f f' cause placed =>
          obtain ⟨cause₀, place₀⟩ := f
          cases cause
          cases placed
          rfl

/-- Steps that the same change makes in both stores. -/
theorem avoiding_step {w : Nat} {α : Type} {good : Nat → α → α → Prop} {change : Store → α × Store}
    (changed : ∀ s s', s.AlikeBut name s' → s.Avoids name r →
      (change s).2.AlikeBut name (change s').2 ∧ (change s).2.Avoids name r ∧
        good w (change s).1 (change s').1) :
    Eval.InStep (avoiding name r).toComparison w good (Eval.step change) (Eval.step change) := by
  refine .step fun s s' stores => ?_
  obtain ⟨alike, avoids, results⟩ := changed s s' stores.1 stores.2
  exact ⟨w, le_rfl, ⟨alike, avoids⟩, results⟩

section

variable {w : Nat} {dialect : DialectId} {scope : ScopeId} (within : r.scopes scope)

theorem avoiding_refused {special : Special} {args : List Expr} {e : Stop}
    (refused : ∀ it, special.form it args scope = throw e) :
    (avoiding name r).Arguments w dialect dialect scope scope special args args :=
  .refused (.refl (fun _ => rfl) e) refused refused

include within

theorem avoiding_task {e : Expr} (avoids : e.Avoids name r) :
    (avoiding name r).tasks w ⟨dialect, e, scope⟩ ⟨dialect, e, scope⟩ :=
  ⟨rfl, avoids, within⟩

theorem avoiding_each {args : List Expr} (avoids : ∀ a ∈ args, a.Avoids name r) :
    args.Forall₂ (fun e e' => (avoiding name r).tasks w ⟨dialect, e, scope⟩ ⟨dialect, e', scope⟩)
      args :=
  List.forall₂_same.2 fun a member => avoiding_task within (avoids a member)

/-- The arguments of each form, or that the form refuses them. -/
theorem avoiding_arguments {special : Special} {operator : Expr} {args : List Expr} {span : Span}
    (avoids : (Expr.apply operator args span).Avoids name r)
    (named : operator.special? = some special) :
    (avoiding name r).Arguments w dialect dialect scope scope special args args := by
  cases special with
  | conditional =>
      have each : ∀ a ∈ args, a.Avoids name r := avoids.arguments fun read => by
        rw [Expr.reads, named]
        exact read
      by_cases count : args.length = 3
      · obtain ⟨c, a, b, rfl⟩ := List.length_eq_three.1 count
        exact .conditional (avoiding_task within (each c (by simp)))
          (avoiding_task within (each a (by simp))) (avoiding_task within (each b (by simp)))
      · exact avoiding_refused fun it => Special.conditional_of_count count
  | loop =>
      have each : ∀ a ∈ args, a.Avoids name r := avoids.arguments fun read => by
        rw [Expr.reads, named]
        exact read
      by_cases count : args.length = 2
      · obtain ⟨c, body, rfl⟩ := List.length_eq_two.1 count
        exact .loop (avoiding_task within (each c (by simp)))
          (avoiding_task within (each body (by simp)))
      · exact avoiding_refused fun it => Special.loop_of_count count
  | sequence =>
      have each : ∀ a ∈ args, a.Avoids name r := avoids.arguments fun read => by
        rw [Expr.reads, named]
        exact read
      exact .sequence (avoiding_each within each)
  | definition =>
      by_cases shape : ∃ bound at' e, args = [.word bound at', e]
      · obtain ⟨bound, at', e, rfl⟩ := shape
        have value : e.Avoids name r := avoids.argument (by simp) fun read => by
          rw [Expr.reads, named]
          exact List.mem_append_left _ read
        refine .definition (avoiding_task within value) fun later v v' _ paired => ?_
        obtain ⟨rfl, avoids⟩ := avoiding_values.1 paired
        exact avoiding_step fun s s' alike kept =>
          ⟨alike.bind scope bound v, kept.bind avoids scope bound, trivial⟩
      · refine avoiding_refused fun it => Special.definition_of_shape fun bound at' e same => ?_
        exact shape ⟨bound, at', e, same⟩
  | function =>
      rcases List.eq_nil_or_concat args with rfl | ⟨words, body, rfl⟩
      · exact avoiding_refused fun it => rfl
      · rw [List.concat_eq_append] at avoids ⊢
        have inBody : body.Avoids name r := avoids.argument (by simp) fun read => by
          rw [Expr.reads, named]
          exact Expr.mem_readsOfFunction read words
        cases parameters : Form.parameterNames words with
        | error e => exact avoiding_refused fun it => Form.function_of_error parameters it body scope
        | ok names =>
            refine .function parameters parameters (avoiding_step fun s s' alike kept => ?_)
            refine ⟨{ alike with functions := congrArg (· + 1) alike.functions },
              ⟨kept.outward, kept.bound, kept.new⟩, ?_⟩
            refine avoiding_values.2 ⟨?_, Closure.Avoids.value ⟨inBody, within⟩⟩
            rw [Store.newFunction, Store.newFunction, alike.functions]

end

/-- **Evaluation does not leave a region.**  The functions that stand in expressions must be such
that their bodies do not lead out of it. -/
theorem avoiding_simulates (closed : ∀ f, r.functions f → f.Avoids name r) (limits : Limits) :
    (avoiding name r).Simulates (.standard limits) (.standard limits) where
  limits := rfl
  closures_later _ related := related
  tasks_later _ task := task
  settle := by
    rintro span _ f f' rfl placed
    exact Failure.place_settle_congr placed span.place
  bringTo := by
    rintro span _ f f' rfl placed
    exact Failure.place_bringTo_congr placed span
  identity left right := by rw [left.1, right.1]
  arity related := by rw [related.1]
  print := by
    intro w v v' paired
    obtain ⟨rfl, avoids⟩ := avoiding_values.1 paired
    exact avoiding_step fun s s' alike kept =>
      ⟨alike.print v, ⟨kept.outward, kept.bound, kept.new⟩, trivial⟩
  enter := by
    rintro w f _ values values' ⟨rfl, avoids⟩ _ pairs
    obtain ⟨rfl, good⟩ := Value.Paired.forall₂_same pairs
    refine avoiding_step fun s s' alike kept => ⟨alike.newScope _ _, ?_, ?_⟩
    · exact kept.newScope (forall_parameters good) avoids.scope
    · rw [Store.newScope_fst, Store.newScope_fst, alike.size]
      exact ⟨rfl, avoids.body, kept.new _ (Nat.le_of_eq alike.size)⟩
  unfold := by
    rintro w ⟨dialect, e, scope⟩ _ ⟨rfl, avoids, within⟩
    change e.Avoids name r at avoids
    cases e with
    | literal c span => exact .literal c
    | word other span =>
        have different : other ≠ name := by
          rintro rfl
          exact avoids.unread (List.mem_singleton_self _)
        refine .word rfl (.lookup fun s s' stores => ⟨?_, fun _ => rfl⟩)
        rw [← stores.1.lookup?_eq different]
        cases found : s.lookup? scope other with
        | none => exact .none
        | some v =>
            exact .some (avoiding_values.2 ⟨rfl, stores.2.lookup? within different found⟩)
    | abstract => exact .abstract
    | function identity parameters body home dialect' span =>
        refine .function ⟨rfl, closed _ (avoids.standing _ ⟨span, Expr.mem_nodes_self _⟩)⟩
    | apply operator args span =>
        have form : ∀ special, operator.special? = some special →
            ((Setting.standard limits).dialects dialect).form? operator = some special.form := by
          intro special named
          exact (Expr.form?_eq operator).trans (by rw [named]; rfl)
        cases named : operator.special? with
        | none =>
            have plain : ((Setting.standard limits).dialects dialect).form? operator = none :=
              (Expr.form?_eq operator).trans (by rw [named]; rfl)
            refine .ordinary rfl plain plain (avoiding_task within (avoids.operator named)) ?_
            refine avoiding_each within (avoids.arguments fun read => ?_)
            rw [Expr.reads, named]
            exact List.mem_append_right _ read
        | some special =>
            exact .special special rfl (form special named) (form special named)
              (avoiding_arguments within avoids named)

end Correspondence

/-! ## Bindings that nobody reads -/

namespace Store

variable {s : Store} {name : String} {e : Expr} {home : ScopeId}

/-- What was in reach before an evaluation, and all scopes made since. -/
def reach (s : Store) (name : String) (e : Expr) (home : ScopeId) : Region where
  scopes i := s.InReach name e home i ∨ s.scopes.size ≤ i
  functions := s.Callable name e home

theorem reach_closed (uncalled : ∀ f, s.Callable name e home f → name ∉ f.body.reads) {f : Closure}
    (callable : s.Callable name e home f) : f.Avoids name (s.reach name e home) where
  body := ⟨uncalled f callable, fun _ stands => .inBody callable stands⟩
  scope := .inl (.captured callable)

theorem avoids_reach (uncalled : ∀ f, s.Callable name e home f → name ∉ f.body.reads) :
    s.Avoids name (s.reach name e home) where
  outward i p := by
    rintro (within | new) around
    · exact .inl (.around within around)
    · rw [parent?, Array.getElem?_eq_none new] at around
      cases around
  bound i other v := by
    rintro (within | new) different found f rfl
    · exact reach_closed uncalled (.bound within different found)
    · rw [bindings, Array.getElem?_eq_none new] at found
      cases found
  new _ new := .inr new

end Store

/-- **A binding that is never read has no influence.**  Let an expression not read a name, and let
no function read it that can be called without doing so.  Then from stores that differ in the
bindings of that name only, the evaluation ends alike, with the same value or the same failure at
the same place, and leaves stores that differ in the bindings of that name only, in which the same
was printed.  The name may be that of a special form. -/
theorem Setting.evaluate_unread (limits : Limits) (depth : Nat) (dialect : DialectId) {e : Expr}
    {scope : ScopeId} {name : String} {s s' : Store} (unread : name ∉ e.reads)
    (uncalled : ∀ f, s.Callable name e scope f → name ∉ f.body.reads)
    (alike : s.AlikeBut name s') :
    let evaluation := (standard limits).evaluate depth dialect e scope
    (evaluation.outcome s).1 = (evaluation.outcome s').1 ∧
      (evaluation.outcome s).2.AlikeBut name (evaluation.outcome s').2 := by
  intro evaluation
  have sim : (Correspondence.avoiding name (s.reach name e scope)).Simulates (standard limits)
      (standard limits) := Correspondence.avoiding_simulates (fun _ => Store.reach_closed uncalled) _
  have task : (Correspondence.avoiding name (s.reach name e scope)).tasks 0
      ⟨dialect, e, scope⟩ ⟨dialect, e, scope⟩ :=
    ⟨rfl, ⟨unread, fun _ => .standing⟩, .inl .home⟩
  obtain ⟨later, -, ⟨alike', -⟩, ends⟩ :=
    sim.evaluate depth task s s' ⟨alike, Store.avoids_reach uncalled⟩
  exact ⟨Correspondence.eq_of_avoiding ends, alike'⟩

/-! ### A form and a binding of one name -/

/-- A scope that binds a function of one parameter. -/
def Store.withIdentity : Store :=
  ⟨#[⟨[("same", .closure ⟨0, ["x"], .word "x" ⟨7, 8, none⟩, 0, 0⟩)], none⟩], #[], 2, 0⟩

/-- The function applied to a conditional. -/
def Expr.chosen : Expr :=
  let choice := apply (word "if" ⟨5, 7, none⟩)
    [literal (.bool true) ⟨8, 12, none⟩, literal (.int 1) ⟨14, 15, none⟩,
      literal (.int 2) ⟨17, 18, none⟩] ⟨5, 19, none⟩
  apply (word "same" ⟨0, 4, none⟩) [choice] ⟨0, 20, none⟩

/-- The only function that can be called is the one that the scope binds. -/
theorem Store.withIdentity_closed :
    (Region.mk (· = 0) fun f => f.body = .word "x" ⟨7, 8, none⟩ ∧ f.scope = 0).Closed withIdentity
      "if" .chosen 0 where
  home := rfl
  around := by
    rintro _ p rfl ⟨⟩
  captured callable := callable.2
  bound := by
    rintro _ other f rfl - found
    cases Ordered.mem_of_find? found with
    | head _ => exact ⟨rfl, rfl⟩
    | tail _ none => cases none
  standing := by
    rintro f ⟨span, node⟩
    simp [Expr.chosen, Expr.nodes, Expr.nodesOfArgs] at node
  inBody := by
    rintro f g ⟨body, -⟩ ⟨span, node⟩
    simp [body, Expr.nodes] at node

/-- The conditional selects as before when a function that reads its own name, that of the form, is
bound to it. -/
theorem Setting.evaluate_unread_formName :
    let s := Store.withIdentity
    let s' := s.bind 0 "if" (.closure ⟨1, [], .word "if" ⟨6, 8, none⟩, 0, 0⟩)
    let evaluation := (standard .standard).evaluate 3 0 .chosen 0
    "if" ∉ Expr.chosen.reads ∧ (∀ f, s.Callable "if" .chosen 0 f → "if" ∉ f.body.reads) ∧
      (evaluation.outcome s).1 = .ok (.int 1) ∧ (evaluation.outcome s').1 = .ok (.int 1) ∧
      (evaluation.outcome s).2.AlikeBut "if" (evaluation.outcome s').2 := by
  intro s s' evaluation
  have unread : "if" ∉ Expr.chosen.reads := by decide
  have uncalled : ∀ f, s.Callable "if" .chosen 0 f → "if" ∉ f.body.reads := by
    intro f callable
    rw [(Store.withIdentity_closed.callable callable).1]
    decide
  obtain ⟨same, alike⟩ :=
    evaluate_unread .standard 3 0 unread uncalled (s.alikeBut_bind 0 "if" _)
  have value : (evaluation.outcome s).1 = .ok (.int 1) := rfl
  exact ⟨unread, uncalled, value, same.symm.trans value, alike⟩

end EggLanguage
