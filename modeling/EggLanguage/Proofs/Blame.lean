/-
# EggLanguage.Proofs.Blame -- failures are reported within the program that is run

A program may call functions that were read from other sources, and these may call back
functions of the program.  `Expr.blame` says where its failures are reported all the
same: at a node of the program.  That is the node that raised the failure, if only
functions of the program were active, and otherwise the call by which control left the
program, the outermost one.

`Linked` is the invariant: from the program inwards, each active call is a node of the
body that the call around it entered, and the node that raised the failure lies in the
innermost body.  What is blamed follows from it by induction on the active calls.
-/
import EggLanguage.Proofs.Spans

namespace EggLanguage

set_option autoImplicit false

open EggLanguage.Text

/-! ## Sources of nodes -/

/-- No node of the expression was read from the source. -/
def Foreign (source : Source) (e : Expr) : Prop :=
  ∀ x ∈ e.nodes, ∀ span, x.span? = some span →
    span.source.map Source.identity ≠ some source.identity

/-- An expression that is a node of a program, or holds nothing of its source. -/
def Known (source : Source) (program e : Expr) : Prop :=
  e ∈ program.nodes ∨ Foreign source e

theorem Known.inherited (source : Source) (program : Expr) :
    Expr.Inherited (Known source program) := by
  rintro e x (node | foreign) inside
  · exact .inl (Expr.mem_nodes_trans inside node)
  · exact .inr fun y node => foreign y (Expr.mem_nodes_trans node inside)

/-! ## Active calls -/

/-- The active calls and the place where the failure was raised, as seen from a body: each
call is a node of the body around it and enters a body with the property `K`. -/
inductive Linked (K : Expr → Prop) : Expr → List Call → Span → Prop where
  | origin {root node : Expr} {span : Span} (inside : node ∈ root.nodes)
      (spanned : node.span? = some span) : Linked K root [] span
  | call {root node : Expr} {call : Call} {calls : List Call} {origin : Span}
      (inside : node ∈ root.nodes) (spanned : node.span? = some call.span)
      (known : K call.callee.body) (rest : Linked K call.callee.body calls origin) :
      Linked K root (call :: calls) origin

theorem Linked.outwards {K : Expr → Prop} {root e : Expr} {calls : List Call} {origin : Span}
    (linked : Linked K e calls origin) (inside : e ∈ root.nodes) : Linked K root calls origin := by
  cases linked with
  | origin node spanned => exact .origin (Expr.mem_nodes_trans node inside) spanned
  | call node spanned known rest => exact .call (Expr.mem_nodes_trans node inside) spanned known rest

theorem Special.Malformed.own_mem {special : Special} {args : List Expr} {cause : Cause}
    {span : Span} (malformed : Malformed special args cause (some span)) :
    ∃ a ∈ args, a.span? = some span := by
  cases malformed with
  | parameter words notWord spanned => exact ⟨_, by simp, spanned⟩

/-- What is raised in an expression is linked to it. -/
theorem Raises.linked {K : Expr → Prop} (inherited : Expr.Inherited K) {limits : Limits}
    {depth : Nat} {dialect : DialectId} {e : Expr} {scope : ScopeId} {s : Store} {r : Raised}
    (raised : Raises limits depth dialect e scope s r) (known : K e) (holds : s.Holds K) :
    Linked K e r.calls r.origin := by
  induction raised with
  | undefined unbound => exact .origin (Expr.mem_nodes_self _) rfl
  | @malformed _ _ _ _ args span _ _ _ own malformed =>
      cases own with
      | none => exact .origin (Expr.mem_nodes_self _) rfl
      | some own =>
          obtain ⟨a, member, spanned⟩ := malformed.own_mem
          exact .origin (Expr.mem_nodes_argument _ member span) spanned
  | @demanded depth dialect special at' args span scope _ _ e _ demanded _ ih =>
      have each : ∀ a ∈ args, ((Setting.standard limits).evaluate depth dialect a scope).Keeps
          (Store.Holds K) (Value.Holds K) := fun a member =>
        evaluate_keeps inherited depth dialect a scope
          (inherited _ a known (Expr.mem_nodes_argument _ member span))
      obtain ⟨member, holds'⟩ := demanded.keeps each holds
      have inside := Expr.mem_nodes_argument (.word special.word at') member span
      exact (ih (inherited _ e known inside) holds').outwards inside
  | @operator _ _ operator args span _ _ _ _ _ ih =>
      have inside := Expr.mem_nodes_operator operator args span
      exact (ih (inherited _ operator known inside) holds).outwards inside
  | notAFunction => exact .origin (Expr.mem_nodes_self _) rfl
  | @argument _ _ operator e before after span _ _ _ _ _ _ called _ ih =>
      have knownArgs : ∀ a ∈ before ++ e :: after, K a := fun a member =>
        inherited _ a known (Expr.mem_nodes_argument operator member span)
      have knownOperator : K operator :=
        inherited _ operator known (Expr.mem_nodes_operator operator _ span)
      obtain ⟨holds', -, -⟩ := called.keeps inherited knownOperator
        (fun a member => knownArgs a (List.mem_append_left _ member)) holds
      have member : e ∈ before ++ e :: after := by simp
      exact (ih (knownArgs e member) holds').outwards (Expr.mem_nodes_argument operator member span)
  | builtin => exact .origin (Expr.mem_nodes_self _) rfl
  | arity => exact .origin (Expr.mem_nodes_self _) rfl
  | @body _ _ operator args span _ _ _ f _ _ called _ _ ih =>
      obtain ⟨holds', good, knownBody⟩ := called.keeps inherited
        (inherited _ operator known (Expr.mem_nodes_operator operator args span))
        (fun a member => inherited _ a known (Expr.mem_nodes_argument operator member span)) holds
      have inBody := ih (knownBody f rfl) (holds'.newScope (forall_parameters good))
      exact .call (Expr.mem_nodes_self _) rfl (knownBody f rfl) inBody

/-! ## What is blamed -/

section

variable {source : Source} {program root : Expr} {calls : List Call} {origin : Span}

/-- What is blamed for a failure in a body from elsewhere is not in the source. -/
theorem Linked.blamed_foreign (linked : Linked (Known source program) root calls origin)
    (foreign : Foreign source root) :
    (Raised.blamed calls origin).source.map Source.identity ≠ some source.identity := by
  induction linked with
  | origin inside spanned => exact foreign _ inside _ spanned
  | call inside spanned known rest ih =>
      have outside := foreign _ inside _ spanned
      rw [Raised.blamed_cons, Span.broughtTo]
      split
      · exact outside
      · rename_i same
        rwa [Decidable.not_not.1 same]

variable (own : ReadFrom source program)

include own

/-- A failure that leaves a call of another source is blamed on the call. -/
theorem Linked.blamed_of_foreign {call : Call} {node : Expr} (inside : node ∈ program.nodes)
    (spanned : node.span? = some call.span) (foreign : Foreign source call.callee.body)
    (rest : Linked (Known source program) call.callee.body calls origin) :
    Raised.blamed (call :: calls) origin = call.span := by
  rw [Raised.blamed_cons, Span.broughtTo, own _ inside _ spanned, Option.map_some,
    if_pos (rest.blamed_foreign foreign)]

/-- A failure that leaves a call within the program stays where it is. -/
theorem Raised.blamed_of_own {call : Call} {node node' : Expr} (inside : node ∈ program.nodes)
    (spanned : node.span? = some call.span) (inside' : node' ∈ program.nodes)
    (blamed : node'.span? = some (Raised.blamed calls origin)) :
    Raised.blamed (call :: calls) origin = Raised.blamed calls origin := by
  rw [Raised.blamed_cons, Span.broughtTo, own _ inside _ spanned, own _ inside' _ blamed,
    if_neg (Decidable.not_not.2 rfl)]

/-- A node of the program is blamed for a failure in one of its bodies. -/
theorem Linked.exists_blamed (linked : Linked (Known source program) root calls origin)
    (inside : root ∈ program.nodes) :
    ∃ node ∈ program.nodes, node.span? = some (Raised.blamed calls origin) := by
  induction linked with
  | @origin root node span inRoot spanned =>
      exact ⟨node, Expr.mem_nodes_trans inRoot inside, spanned⟩
  | @call root node call calls origin inRoot spanned known rest ih =>
      have calling := Expr.mem_nodes_trans inRoot inside
      rcases known with within | foreign
      · obtain ⟨node', inside', blamed⟩ := ih within
        refine ⟨node', inside', ?_⟩
        rw [Raised.blamed_of_own own calling spanned inside' blamed, blamed]
      · refine ⟨node, calling, ?_⟩
        rw [Linked.blamed_of_foreign own calling spanned foreign rest, spanned]

/-- As long as control stays within the program, the innermost node is blamed. -/
theorem Linked.blamed_eq_origin (linked : Linked (Known source program) root calls origin)
    (inside : root ∈ program.nodes) (within : ∀ call ∈ calls, call.callee.body ∈ program.nodes) :
    Raised.blamed calls origin = origin := by
  induction linked with
  | origin => rfl
  | @call root node call calls origin inRoot spanned known rest ih =>
      rw [List.forall_mem_cons] at within
      obtain ⟨node', inside', blamed⟩ := rest.exists_blamed own within.1
      have calling := Expr.mem_nodes_trans inRoot inside
      rw [Raised.blamed_of_own own calling spanned inside' blamed, ih within.1 within.2]

/-- Once control has left the program, the call by which it left first is blamed. -/
theorem Linked.blamed_eq_call (linked : Linked (Known source program) root calls origin)
    (inside : root ∈ program.nodes) {before after : List Call} {left : Call}
    (split : calls = before ++ left :: after)
    (within : ∀ call ∈ before, call.callee.body ∈ program.nodes)
    (foreign : Foreign source left.callee.body) : Raised.blamed calls origin = left.span := by
  induction linked generalizing before with
  | origin => exact absurd split.symm (by simp)
  | @call root node call calls origin inRoot spanned known rest ih =>
      have calling := Expr.mem_nodes_trans inRoot inside
      cases before with
      | nil =>
          obtain ⟨rfl, rfl⟩ := List.cons.inj split
          exact Linked.blamed_of_foreign own calling spanned foreign rest
      | cons first before =>
          obtain ⟨rfl, rfl⟩ := List.cons.inj split
          rw [List.forall_mem_cons] at within
          obtain ⟨node', inside', blamed⟩ := rest.exists_blamed own within.1
          rw [Raised.blamed_of_own own calling spanned inside' blamed, ih within.1 rfl within.2]

omit own in
theorem Linked.within_or_left (linked : Linked (Known source program) root calls origin) :
    (∀ call ∈ calls, call.callee.body ∈ program.nodes) ∨
      ∃ before left after, calls = before ++ left :: after ∧
        (∀ call ∈ before, call.callee.body ∈ program.nodes) ∧ Foreign source left.callee.body := by
  induction linked with
  | origin => exact .inl (List.forall_mem_nil _)
  | @call root node call calls origin _ _ known rest ih =>
      rcases known with within | foreign
      · rcases ih with all | ⟨before, left, after, rfl, all, foreign⟩
        · exact .inl (List.forall_mem_cons.2 ⟨within, all⟩)
        · exact .inr ⟨call :: before, left, after, rfl,
            List.forall_mem_cons.2 ⟨within, all⟩, foreign⟩
      · exact .inr ⟨[], call, calls, rfl, List.forall_mem_nil _, foreign⟩

end

/-! ## Programs -/

/-- A failure is reported within the program, given what may have been raised. -/
structure ReportedWithin (source : Source) (program : Expr) (f : Failure)
    (IsRaised : Raised → Prop) : Prop where
  /-- A node of the program is blamed, by its span in the source. -/
  node : ∃ start stop, f.place = ⟨some start, some stop, some source⟩ ∧
    ∃ node ∈ program.nodes, node.span? = some ⟨start, stop, some source⟩
  raised : ∃ r, IsRaised r
  /-- The node that raised the failure is blamed if all active calls entered bodies of the
  program, and otherwise the call by which control first left the program. -/
  blamed : ∀ r, IsRaised r → f.cause = r.cause ∧
    ((∀ call ∈ r.calls, call.callee.body ∈ program.nodes) ∧ f.place = r.origin.place ∨
      ∃ before left after, r.calls = before ++ left :: after ∧
        (∀ call ∈ before, call.callee.body ∈ program.nodes) ∧
        Foreign source left.callee.body ∧ f.place = left.span.place)

namespace Expr

open Grammar

/-- **Failures are reported within the program.**  Let the functions in a store have
bodies that are nodes of a program or hold nothing of its source.  When the evaluation of
the program fails, it is told of a node of its own. -/
theorem blame {n : Nat} {source : Source} {program : Expr} (parsed : parse n source = .ok program)
    {s : Store} (known : s.Holds (Known source program)) {limits : Limits} {depth : Nat}
    {dialect : DialectId} {scope : ScopeId} {s' : Store} {f : Failure}
    (failed : ((Setting.standard limits).evaluate depth dialect program scope).Fails s f s') :
    ReportedWithin source program f (Raises limits depth dialect program scope s) := by
  have own := readFrom_of_parse parsed
  have inside := mem_nodes_self program
  have linked : ∀ {r}, Raises limits depth dialect program scope s r →
      Linked (Known source program) program r.calls r.origin := fun raised =>
    raised.linked (Known.inherited source program) (.inl inside) known
  -- Whatever is raised is the failure that was seen: an evaluation ends in one way only.
  have same : ∀ {r}, Raises limits depth dialect program scope s r → f = r.failure := by
    intro r raised
    obtain ⟨_, failed'⟩ := raised.fails
    exact Stop.failure.inj (failed.unique failed').1
  obtain ⟨r, raised, -⟩ := raises_of_fails failed
  refine ⟨?_, ⟨r, raised⟩, fun r raised => ?_⟩
  · obtain ⟨node, isNode, spanned⟩ := (linked raised).exists_blamed own inside
    have from' := own node isNode _ spanned
    rw [same raised, Raised.failure]
    generalize Raised.blamed r.calls r.origin = span at spanned from'
    obtain ⟨start, stop, _⟩ := span
    cases from'
    exact ⟨start, stop, rfl, node, isNode, spanned⟩
  · rw [same raised, Raised.failure]
    refine ⟨rfl, ?_⟩
    rcases (linked raised).within_or_left with within | ⟨before, left, after, split, within, foreign⟩
    · exact .inl ⟨within, by rw [(linked raised).blamed_eq_origin own inside within]⟩
    · refine .inr ⟨before, left, after, split, within, foreign, ?_⟩
      rw [(linked raised).blamed_eq_call own inside split within foreign]

/-- A program that hands a function of its own to one that was read before. -/
def callback : Source :=
  ⟨1, "f(fun(y))"⟩

def callbackTree : Expr :=
  .apply (.word "f" ⟨0, 1, some callback⟩)
    [.apply (.word "fun" ⟨2, 5, some callback⟩) [.word "y" ⟨6, 7, some callback⟩]
      ⟨2, 8, some callback⟩]
    ⟨0, 9, some callback⟩

/-- The store after `fun(g, g())` was read from elsewhere and bound to `f`. -/
def callbackStore : Store :=
  let elsewhere : Source := ⟨0, "fun(g, g())"⟩
  let body : Expr :=
    .apply (.word "g" ⟨7, 8, some elsewhere⟩) [] ⟨7, 10, some elsewhere⟩
  ⟨#[⟨[("f", .closure ⟨0, ["g"], body, 0, 0⟩)], none⟩], #[], 1, 2⟩

theorem parse_callback : parse 3 callback = .ok callbackTree := by
  have f : Lexeme .exact (.word ['f']) ['(', 'f', 'u', 'n', '(', 'y', ')', ')'] :=
    Token.lexeme_of_read? (show Token.read? ['f', '(', 'f', 'u', 'n', '(', 'y', ')', ')'] = _ from rfl)
  have function : Lexeme .exact (.word ['f', 'u', 'n']) ['(', 'y', ')', ')'] :=
    Token.lexeme_of_read? (show Token.read? ['f', 'u', 'n', '(', 'y', ')', ')'] = _ from rfl)
  have y : Lexeme .exact (.word ['y']) [')', ')'] :=
    Token.lexeme_of_read? (show Token.read? ['y', ')', ')'] = _ from rfl)
  have head : Expression .exact callback ⟨0, _⟩ _ ⟨1, _⟩ := .token f ⟨rfl, rfl⟩
  have form : Expression .exact callback ⟨2, _⟩ _ ⟨5, _⟩ := .token function ⟨rfl, rfl⟩
  have body : Expression .exact callback ⟨6, _⟩ _ ⟨7, _⟩ := .token y ⟨rfl, rfl⟩
  have inner := Expression.apply form (.refl _) (.some (Cursor.passes_cons 5 '(' _) (.refl _) body
    (.close (.refl _) (Cursor.passes_cons 7 ')' _)))
  have list := Arguments.some (Cursor.passes_cons 1 '(' _) (.refl _) inner
    (.close (.refl _) (Cursor.passes_cons 8 ')' []))
  have program : Program .exact callback callbackTree :=
    ⟨_, _, _, .refl _, .apply head (.refl _) list, .refl _, rfl⟩
  exact parse_ok_iff.2 ⟨program, by decide⟩

theorem callbackStore_holds : callbackStore.Holds (Known callback callbackTree) := by
  intro scope member bound inScope
  obtain rfl := List.mem_singleton.1 (Array.mem_def.1 member)
  obtain rfl := List.mem_singleton.1 inScope
  refine .inr fun x node span spanned => ?_
  simp only [nodes, nodesOfArgs, List.append_nil, List.mem_cons, List.not_mem_nil, or_false] at node
  rcases node with rfl | rfl
  · cases spanned
    decide
  · cases spanned
    decide

/-- The failure of the function goes through the other source, and is blamed on the call
by which control left the program. -/
theorem blame_callback :
    ReportedWithin callback callbackTree ⟨.undefined "y", ⟨some 0, some 9, some callback⟩⟩
      (Raises .standard 5 0 callbackTree 0 callbackStore) :=
  blame parse_callback callbackStore_holds (Eval.stops_of_outcome rfl)

end Expr

end EggLanguage
