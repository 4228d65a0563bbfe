/-
# EggLanguage.Proofs.Calls -- what a call does before the body runs

A call with too few or too many arguments fails before anything has happened.  Any other call of
a function that a program made evaluates the body in a new scope, of which `Closure.Enters` tells
all there is to know: its own names are the parameters, each once, with the last argument given
for each; and around it lies the scope that the function captured, as that scope is whenever a
name is looked up (`Function.call_enters`).

The last point rests on parents, which never change: the chain of a scope is at any later time
what it is now (`Store.Grown.chain_eq`).
-/
import EggLanguage.Proofs.Chains
import EggLanguage.Proofs.Locality
import EggLanguage.Proofs.Simulation

namespace EggLanguage

set_option autoImplicit false

/-! ## What goes on holding of a scope -/

namespace Store.Grown

variable {writable : ScopeId → Prop} {earlier later : Store}

/-- The chain of a scope stays what it was when the scope was there first. -/
theorem chain_eq (grown : earlier.Grown writable later) (layered : earlier.Layered) {i : ScopeId}
    (old : i < earlier.scopes.size) : later.chain i = earlier.chain i := by
  have within : ∀ length (j : ScopeId), j < earlier.scopes.size →
      later.chainWithin length j = earlier.chainWithin length j := by
    intro length
    induction length with
    | zero => exact fun j _ => rfl
    | succ length ih =>
        intro j old
        rw [chainWithin, chainWithin, grown.parent j old]
        cases around : earlier.parent? j with
        | none => rfl
        | some p => exact congrArg (j :: ·) (ih p (Nat.lt_trans (layered j p around) old))
  exact within (i + 1) i old

/-- Names that a scope does not bind are looked up in it as they are in the scope around it. -/
theorem lookup?_outside (grown : earlier.Grown writable later) (layered : earlier.Layered)
    {i p : ScopeId} (old : i < earlier.scopes.size) (around : earlier.parent? i = some p)
    {name : String} (free : name ∉ later.names i) :
    later.lookup? i name = later.lookup? p name := by
  have older := Nat.lt_trans (layered i p around) old
  rw [lookup?, lookup?, grown.chain_eq layered old, grown.chain_eq layered older,
    layered.chain_eq i, around, List.findSome?_cons, find?_eq_none_iff.2 free]
  rfl

end Store.Grown

/-! ## Calls -/

/-- The number of arguments that a function must be called with.  A parameter counts as often as
it is named. -/
def Function.arity : Function → Nat
  | .builtin b => b.arity
  | .closure f => f.parameters.length

theorem Function.call_of_misfit {f : Function} {args : List Value} (misfit : args.length ≠ f.arity)
    (evaluate : DialectId → Expr → ScopeId → Eval Value) :
    f.call evaluate args = Eval.fail (.arity f.arity args.length) := by
  cases f with
  | builtin b => exact Builtin.call_of_misfit misfit
  | closure f => exact if_neg misfit

namespace Closure

/-- What a call of a function finds: the store that its body starts from, and the scope that the
body is evaluated in.  All the rest of the store is as it was before the call. -/
structure Enters (f : Closure) (args : List Value) (s entered : Store) (inner : ScopeId) : Prop where
  new : s.scopes.size ≤ inner
  /-- Each parameter once, in the order in which they come first. -/
  names : entered.names inner = f.parameters.eraseDups
  /-- Of the arguments for one name the last counts. -/
  bound : ∀ (i : Nat) (name : String) (v : Value),
    f.parameters[i]? = some name → args[i]? = some v →
      (∀ j, i < j → f.parameters[j]? ≠ some name) →
        (entered.bindings inner).find? name = some v
  around : entered.parent? inner = some f.scope
  /-- Any other name is at any later time looked up as it then is in the captured scope. -/
  resolves : ∀ later, entered.Grown (fun _ => True) later → ∀ name, name ∉ later.names inner →
    (Eval.lookup inner name).outcome later = (Eval.lookup f.scope name).outcome later
  kept : s.Grown (fun _ => False) entered
  layered : entered.Layered
  printed : entered.printed = s.printed
  functions : entered.functions = s.functions
  sources : entered.sources = s.sources

/-- The scope that a call makes. -/
theorem enters_newScope {s : Store} (layered : s.Layered) (f : Closure) {args : List Value}
    (captured : f.scope < s.scopes.size) (fits : args.length = f.parameters.length) :
    f.Enters args s
      (s.newScope (Ordered.ofList (f.parameters.zip args)) (some f.scope)).2 s.scopes.size := by
  have around : (s.newScope (Ordered.ofList (f.parameters.zip args)) (some f.scope)).2.parent?
      s.scopes.size = some f.scope := by
    rw [Store.parent?_newScope, if_pos rfl]
  have inner : (s.newScope (Ordered.ofList (f.parameters.zip args)) (some f.scope)).2.bindings
      s.scopes.size = Ordered.ofList (f.parameters.zip args) := by
    rw [Store.bindings_newScope, if_pos rfl]
  have after : (s.newScope (Ordered.ofList (f.parameters.zip args)) (some f.scope)).2.Layered := by
    refine layered.newScope _ ?_
    rintro p ⟨⟩
    exact captured
  refine ⟨Nat.le_refl _, ?names, ?bound, around, ?resolves,
    (Store.Grown.refl _ s).newScope _ _, after, rfl, rfl, rfl⟩
  case names =>
    rw [Store.names, inner, Ordered.names_ofList, List.map_fst_zip (Nat.le_of_eq fits.symm)]
  case bound =>
    intro i name v named given last
    rw [inner]
    exact Ordered.find?_ofList_zip named given last
  case resolves =>
    intro later grown name free
    have there : s.scopes.size <
        (s.newScope (Ordered.ofList (f.parameters.zip args)) (some f.scope)).2.scopes.size := by
      rw [Store.size_newScope]
      exact Nat.lt_succ_self _
    rw [Eval.outcome_lookup, Eval.outcome_lookup, grown.lookup?_outside after there around free]

end Closure

/-- **Calling a function.**  With a number of arguments that is not its arity, whatever would
evaluate the body, a call fails for that reason and leaves the store as it was.  Any other call of
a function over a scope of the store evaluates its body where `Closure.Enters` says, and the
stores that evaluation leads to from there are of those that it speaks of.  Scopes are younger
than those around them in every forest of scopes (`Store.Forest.layered`). -/
theorem Function.call_enters {s : Store} (layered : s.Layered) (f : Function) (args : List Value)
    (captured : ∀ g, f = .closure g → g.scope < s.scopes.size) :
    (args.length ≠ f.arity → ∃ failure : Failure, failure.cause.kind = .type ∧
      failure.cause.message =
        s!"Wrong number of arguments. Expected {f.arity} got {args.length}" ∧
      ∀ evaluate, (f.call evaluate args).outcome s = (.error (.failure failure), s)) ∧
    ∀ g, f = .closure g → args.length = f.arity → ∃ entered inner, g.Enters args s entered inner ∧
      (∀ evaluate, (f.call evaluate args).outcome s =
        (evaluate g.dialect g.body inner).outcome entered) ∧
      ∀ limits depth dialect e scope later, entered.Grown (fun _ => True) later →
        entered.Grown (fun _ => True)
          (((Setting.standard limits).evaluate depth dialect e scope).outcome later).2 := by
  constructor
  · intro misfit
    refine ⟨.ofCause (.arity f.arity args.length), rfl, rfl, fun evaluate => ?_⟩
    rw [f.call_of_misfit misfit evaluate]
    rfl
  · rintro g rfl fits
    refine ⟨_, _, g.enters_newScope layered (captured g rfl) fits, fun evaluate => ?_, ?_⟩
    · have same : args.length = g.parameters.length := fits
      show (g.call evaluate args).outcome s = _
      rw [Closure.call, if_pos same, Eval.outcome_bind]
      rfl
    · intro limits depth dialect e scope later grown
      exact (Setting.evaluate_grown limits depth dialect e scope fun _ => trivial).outcome grown

/-- A function over the first scope that names a parameter twice, and whose body is a name that is
not one of them. -/
def Closure.repeated : Closure :=
  ⟨0, ["x", "y", "x"], .word "z" ⟨0, 1, none⟩, 0, 0⟩

/-- One argument is too few.  Of three the third counts for the repeated parameter; and the name
in the body is seen once it is bound in the captured scope, which it was not at the call. -/
theorem Function.call_enters_repeated :
    let s := (Store.empty.newScope [] none).2
    (∃ failure : Failure,
      failure.cause.message = "Wrong number of arguments. Expected 3 got 1" ∧
      ∀ evaluate, ((Function.closure .repeated).call evaluate [.int 1]).outcome s =
        (.error (.failure failure), s)) ∧
    ∃ entered inner,
      (∀ evaluate,
        ((Function.closure .repeated).call evaluate [.int 1, .int 2, .int 3]).outcome s =
          (evaluate 0 (.word "z" ⟨0, 1, none⟩) inner).outcome entered) ∧
      entered.names inner = ["x", "y"] ∧
      (entered.bindings inner).find? "x" = some (.int 3) ∧
      ((Eval.lookup inner "z").outcome (entered.bind 0 "z" (.int 5))).1 = .ok (.int 5) := by
  intro s
  have layered : s.Layered := Store.Layered.newScope (s := .empty) nofun _ nofun
  have captured : ∀ g, Function.closure .repeated = .closure g → g.scope < s.scopes.size := by
    rintro g ⟨⟩
    exact Nat.zero_lt_one
  obtain ⟨misfit, -⟩ := call_enters layered (.closure .repeated) [.int 1] captured
  obtain ⟨-, fit⟩ := call_enters layered (.closure .repeated) [.int 1, .int 2, .int 3] captured
  obtain ⟨failure, -, message, fails⟩ := misfit (by decide)
  obtain ⟨entered, inner, enters, body, -⟩ := fit _ rfl rfl
  have names : entered.names inner = ["x", "y"] := enters.names
  have there : 0 < entered.scopes.size := Nat.lt_of_lt_of_le Nat.zero_lt_one enters.kept.size
  refine ⟨⟨failure, message, fails⟩, entered, inner, body, names, ?_, ?_⟩
  · refine enters.bound 2 "x" (.int 3) rfl rfl fun j after => ?_
    rw [List.getElem?_eq_none (show 3 ≤ j from after)]
    nofun
  · have grown : entered.Grown (fun _ => True) (entered.bind 0 "z" (.int 5)) :=
      (Store.Grown.refl _ entered).bind (fun _ => trivial) _ _
    have elsewhere : inner ≠ 0 := Nat.ne_of_gt enters.new
    rw [enters.resolves _ grown "z" (by rw [entered.names_bind_of_ne elsewhere, names]; decide)]
    have found : (entered.bind 0 "z" (.int 5)).lookup? 0 "z" = some (.int 5) := by
      rw [Store.lookup?, Store.chain, Store.chainWithin, List.findSome?_cons, Store.bindings_bind,
        if_pos ⟨rfl, there⟩, Ordered.find?_put, if_pos rfl]
    show ((Eval.lookup 0 "z").outcome (entered.bind 0 "z" (.int 5))).1 = .ok (.int 5)
    rw [Eval.outcome_lookup, found]

end EggLanguage
