/-
# EggLanguage.Proofs.Bodies -- where the bodies of functions come from

A function that an evaluation makes has a node of the evaluated expression for its body,
or a node of the body of a function that was there before.  So a property of expressions
that all their nodes inherit (`Expr.Inherited`) holds of all bodies in a store, once it
does: evaluation keeps it (`evaluate_keeps`), and so do the steps that lead to a call
(`Called.keeps`).
-/
import EggLanguage.Proofs.Invariants

namespace EggLanguage

set_option autoImplicit false

/-! ## Nodes -/

namespace Expr

mutual

/-- The nodes of an expression, itself first.  The body of a function that stands in it
belongs to it. -/
def nodes : Expr → List Expr
  | literal value span => [literal value span]
  | word name span => [word name span]
  | apply operator args span => apply operator args span :: (operator.nodes ++ nodesOfArgs args)
  | function identity parameters body scope dialect span =>
      function identity parameters body scope dialect span :: body.nodes
  | abstract => [abstract]

def nodesOfArgs : List Expr → List Expr
  | [] => []
  | e :: rest => e.nodes ++ nodesOfArgs rest

end

theorem mem_nodes_self (e : Expr) : e ∈ e.nodes := by
  cases e <;> simp [nodes]

theorem mem_nodesOfArgs {x : Expr} {args : List Expr} :
    x ∈ nodesOfArgs args ↔ ∃ a ∈ args, x ∈ a.nodes := by
  induction args with
  | nil => simp [nodesOfArgs]
  | cons a rest ih => simp [nodesOfArgs, ih]

theorem mem_nodes_operator (operator : Expr) (args : List Expr) (span : Span) :
    operator ∈ (apply operator args span).nodes := by
  simp [nodes, mem_nodes_self]

theorem mem_nodes_argument (operator : Expr) {args : List Expr} {a : Expr} (member : a ∈ args)
    (span : Span) : a ∈ (apply operator args span).nodes := by
  refine List.mem_cons_of_mem _ (List.mem_append_right _ ?_)
  exact mem_nodesOfArgs.2 ⟨a, member, mem_nodes_self a⟩

mutual

/-- The nodes of a node are nodes of the whole. -/
theorem mem_nodes_trans {x y : Expr} (inside : y ∈ x.nodes) :
    ∀ {e : Expr}, x ∈ e.nodes → y ∈ e.nodes
  | literal _ _, node => by
      cases List.mem_singleton.1 node
      exact inside
  | word _ _, node => by
      cases List.mem_singleton.1 node
      exact inside
  | apply operator args _, node => by
      rcases List.mem_cons.1 node with rfl | node
      · exact inside
      · refine List.mem_cons_of_mem _ (List.mem_append.2 ?_)
        rcases List.mem_append.1 node with node | node
        · exact .inl (mem_nodes_trans inside node)
        · exact .inr (mem_nodesOfArgs_trans inside node)
  | function _ _ body _ _ _, node => by
      rcases List.mem_cons.1 node with rfl | node
      · exact inside
      · exact List.mem_cons_of_mem _ (mem_nodes_trans inside node)
  | abstract, node => by
      cases List.mem_singleton.1 node
      exact inside

theorem mem_nodesOfArgs_trans {x y : Expr} (inside : y ∈ x.nodes) :
    ∀ {args : List Expr}, x ∈ nodesOfArgs args → y ∈ nodesOfArgs args
  | [], node => by cases node
  | _ :: _, node => by
      rcases List.mem_append.1 node with node | node
      · exact List.mem_append_left _ (mem_nodes_trans inside node)
      · exact List.mem_append_right _ (mem_nodesOfArgs_trans inside node)

end

/-- A property that the nodes of an expression inherit from it. -/
def Inherited (K : Expr → Prop) : Prop :=
  ∀ e x, K e → x ∈ e.nodes → K x

end Expr

/-! ## Bodies in a store -/

section

variable {K : Expr → Prop}

/-- The body of a function has a property. -/
def Value.Holds (K : Expr → Prop) : Value → Prop
  | .constant _ => True
  | .closure f => K f.body

/-- The bodies of all functions that are bound in a store have a property. -/
def Store.Holds (K : Expr → Prop) (s : Store) : Prop :=
  ∀ scope ∈ s.scopes, ∀ bound ∈ scope.bindings, bound.2.Holds K

theorem Value.Holds.body {v : Value} {f : Closure} (holds : v.Holds K)
    (callable : v.function? = some (.closure f)) : K f.body := by
  rw [Value.eq_closure callable] at holds
  exact holds

theorem Value.Holds.imp {K' : Expr → Prop} (implied : ∀ e, K e → K' e) {v : Value}
    (holds : v.Holds K) : v.Holds K' := by
  cases v with
  | constant c => trivial
  | closure f => exact implied _ holds

theorem Store.Holds.imp {K' : Expr → Prop} (implied : ∀ e, K e → K' e) {s : Store}
    (holds : s.Holds K) : s.Holds K' := fun scope member bound inScope =>
  (holds scope member bound inScope).imp implied

namespace Store.Holds

variable {s : Store}

theorem lookup (holds : s.Holds K) {scope : ScopeId} {name : String} {v : Value}
    (found : s.lookup? scope name = some v) : v.Holds K := by
  obtain ⟨i, -, bound⟩ := List.exists_of_findSome?_eq_some found
  have member := Ordered.mem_of_find? bound
  rw [bindings] at member
  split at member
  · rename_i scope inStore
    exact holds scope (Array.mem_of_getElem? inStore) _ member
  · cases member

theorem bind (holds : s.Holds K) {v : Value} (good : v.Holds K) (scope : ScopeId) (name : String) :
    (s.bind scope name v).Holds K := by
  intro found member
  obtain ⟨i, inStore, rfl⟩ := Array.mem_iff_getElem.1 member
  simp only [Store.bind, Array.getElem_modify]
  split
  · exact Ordered.forall_put (holds _ (Array.getElem_mem _)) good
  · exact holds _ (Array.getElem_mem _)

theorem newScope (holds : s.Holds K) {bindings : Ordered Value} {parent : Option ScopeId}
    (good : ∀ bound ∈ bindings, bound.2.Holds K) : (s.newScope bindings parent).2.Holds K := by
  intro found member
  rcases Array.mem_push.1 member with old | rfl
  · exact holds found old
  · exact good

end Store.Holds

/-- A call binds the parameters to values of the arguments. -/
theorem forall_parameters {P : Value → Prop} {parameters : List String} {values : List Value}
    (good : ∀ v ∈ values, P v) : ∀ bound ∈ Ordered.ofList (parameters.zip values), P bound.2 :=
  Ordered.forall_ofList fun _ member => good _ (List.of_mem_zip member).2

/-! ## Evaluation -/

variable {limits : Limits}

theorem Store.holds_maintained (inherited : Expr.Inherited K) :
    Setting.Maintained (Store.Holds K) (Value.Holds K) fun e _ => K e where
  constant _ := trivial
  function known := inherited _ _ known (List.mem_cons_of_mem _ (Expr.mem_nodes_self _))
  lookup holds found := holds.lookup found
  operator known := inherited _ _ known (Expr.mem_nodes_operator _ _ _)
  argument known member := inherited _ _ known (Expr.mem_nodes_argument _ member _)
  bind _ holds good := holds.bind good _ _
  made known holds := ⟨holds, known⟩
  print holds _ := holds
  call holds goodFunction good := ⟨holds.newScope (forall_parameters good), goodFunction⟩

/-- Evaluation makes no function whose body is not a node of the expression or of a body
that was there. -/
theorem evaluate_keeps (inherited : Expr.Inherited K) (depth : Nat) (dialect : DialectId) (e : Expr)
    (scope : ScopeId) (known : K e) :
    ((Setting.standard limits).evaluate depth dialect e scope).Keeps
      (Store.Holds K) (Value.Holds K) :=
  (Store.holds_maintained inherited).evaluate_maintains depth dialect e scope known

/-- At a call, the functions of the store, the one that is called and those among its
arguments all have bodies with the property. -/
theorem Called.keeps (inherited : Expr.Inherited K) {depth : Nat} {dialect : DialectId}
    {operator : Expr} {args : List Expr} {scope : ScopeId} {s s' : Store} {f : Function}
    {values : List Value} (called : Called limits depth dialect operator args scope s f values s')
    (knownOperator : K operator) (knownArgs : ∀ a ∈ args, K a) (holds : s.Holds K) :
    s'.Holds K ∧ (∀ v ∈ values, v.Holds K) ∧ ∀ g, f = .closure g → K g.body := by
  obtain ⟨-, v, s₁, applied, callable, passed⟩ := called
  obtain ⟨holds₁, goodFunction⟩ :=
    (evaluate_keeps inherited depth dialect operator scope knownOperator).gives holds applied
  have passes := Setting.evaluateArgs_keeps fun a member =>
    @evaluate_keeps K limits inherited depth dialect a scope (knownArgs a member)
  obtain ⟨holds', good⟩ := passes.gives holds₁ passed
  refine ⟨holds', good, ?_⟩
  rintro g rfl
  exact goodFunction.body callable

end

end EggLanguage
