/-
# EggLanguage.Proofs.Layout -- the layout of a program does not matter to its run

Two texts that are read as equal trees run alike: they print corresponding values in the
same order and end alike, however the texts are laid out.  More generally, trees that differ
in spans only have outcomes that differ in the places of failures and in the spans in the
bodies of functions only (`Workspace.run_layout`).

This is evaluation in step with every scope and every function corresponding to itself.
-/
import EggLanguage.Proofs.Elsewhere
import EggLanguage.Proofs.Renumbering

namespace EggLanguage

set_option autoImplicit false

/-! ## What differs in spans only -/

/-- One function, but for the spans in its body. -/
structure Closure.Alike (f f' : Closure) : Prop where
  identity : f.identity = f'.identity
  parameters : f.parameters = f'.parameters
  body : f.body.bare = f'.body.bare
  scope : f.scope = f'.scope
  dialect : f.dialect = f'.dialect

/-- Stores that differ at most in the spans in the bodies of functions, and in the number
of texts that were read. -/
structure Store.Alike (s s' : Store) : Prop where
  size : s.scopes.size = s'.scopes.size
  parents : ∀ i, s.parent? i = s'.parent? i
  bindings : ∀ i, (s.bindings i).Paired (Value.Paired Closure.Alike) (s'.bindings i)
  printed : s.printed.toList.Forall₂ (Value.Paired Closure.Alike) s'.printed.toList
  functions : s.functions = s'.functions

/-- Ways to end that differ at most in the place of a failure and in the spans in the bodies
of functions. -/
structure OutcomeAlike (left right : Except Stop Value × Store) : Prop where
  ends : EndAlike Place.anywhere (Value.Paired Closure.Alike) left.1 right.1
  stores : left.2.Alike right.2

theorem Closure.Alike.refl (f : Closure) : f.Alike f :=
  ⟨rfl, rfl, rfl, rfl, rfl⟩

theorem Store.Alike.refl (s : Store) : s.Alike s where
  size := rfl
  parents _ := rfl
  bindings _ := List.forall₂_same.2 fun bound _ => ⟨rfl, .refl Closure.Alike.refl bound.2⟩
  printed := List.forall₂_same.2 fun v _ => .refl Closure.Alike.refl v
  functions := rfl

/-! ## Everything corresponds to itself -/

namespace Renumbering

/-- No scope and no function has another number on the other side. -/
def unchanged (size : Nat) : Renumbering where
  scopes _ i i' := i = i'
  functions a a' := a = a'
  size := size
  size' := size
  printed := []
  printed' := []
  later _ same := same
  new _ := rfl
  old same _ := same
  scopes_unique := by rintro _ i _ j _ rfl rfl; exact Iff.rfl
  functions_unique := by rintro a _ b _ rfl rfl; exact Iff.rfl
  aligned := .inl fun _ _ _ same => same

variable {size n : Nat}

theorem unchanged_fixes (e : Expr) : (unchanged size).Fixes e :=
  fun _ _ _ _ _ _ _ => ⟨rfl, fun _ => rfl⟩

theorem unchanged_closures {f f' : Closure} : (unchanged size).Closures n f f' ↔ f.Alike f' :=
  ⟨fun ⟨identity, parameters, body, _, scope, dialect⟩ =>
      ⟨identity, parameters, body, scope, dialect⟩,
    fun ⟨identity, parameters, body, scope, dialect⟩ =>
      ⟨identity, parameters, body, unchanged_fixes f.body, scope, dialect⟩⟩

theorem unchanged_values {v v' : Value} :
    v.Paired ((unchanged size).Closures n) v' ↔ v.Paired Closure.Alike v' :=
  ⟨.imp fun _ _ => unchanged_closures.1, .imp fun _ _ => unchanged_closures.2⟩

theorem Stores.alike {s s' : Store} (stores : (unchanged size).Stores n s s') : s.Alike s' where
  size := stores.size.trans stores.size'.symm
  parents i := by
    have around := stores.parents i i rfl
    generalize s.parent? i = parent at around
    generalize s'.parent? i = parent' at around
    cases around with
    | none => rfl
    | some same => exact congrArg some same
  bindings i := (stores.bindings i i rfl).imp fun _ _ => unchanged_values.1
  printed := by
    obtain ⟨made, made', all, all', pairs⟩ := stores.printed
    rw [all, all']
    exact pairs.imp fun _ _ => unchanged_values.1
  functions := stores.functions 0

end Renumbering

theorem Store.Alike.stores {s s' : Store} (alike : s.Alike s') :
    (Renumbering.unchanged s.scopes.size).Stores 0 s s' where
  size := rfl
  size' := alike.size.symm
  functions k := congrArg (· + k) alike.functions
  bindings i i' same := by
    obtain rfl : i = i' := same
    exact (alike.bindings i).imp fun _ _ => Renumbering.unchanged_values.2
  parents i i' same := by
    obtain rfl : i = i' := same
    rw [alike.parents i]
    cases s'.parent? i with
    | none => exact .none
    | some p => exact .some rfl
  aligned := .inl fun _ _ _ same => same
  printed := ⟨_, _, rfl, rfl, alike.printed.imp fun _ _ => Renumbering.unchanged_values.2⟩

theorem Eval.InStep.outcomeAlike {size : Nat} {x x' : Eval Value}
    (inStep : Eval.InStep (Renumbering.unchanged size).correspondence.toComparison 0
      (Renumbering.unchanged size).correspondence.values x x')
    {s s' : Store} (stores : (Renumbering.unchanged size).Stores 0 s s') :
    OutcomeAlike (x.outcome s) (x'.outcome s') := by
  obtain ⟨later, -, stores', ends⟩ := inStep s s' stores
  exact ⟨ends.imp (fun _ _ => id) fun _ _ => Renumbering.unchanged_values.1,
    Renumbering.Stores.alike stores'⟩

/-! ## Trees and texts -/

/-- Trees that differ in spans only evaluate alike, from stores that do. -/
theorem Setting.evaluate_alike (limits : Limits) (depth : Nat) (dialect : DialectId)
    (scope : ScopeId) {e e' : Expr} (equal : e.bare = e'.bare) {s s' : Store} (alike : s.Alike s') :
    OutcomeAlike (((standard limits).evaluate depth dialect e scope).outcome s)
      (((standard limits).evaluate depth dialect e' scope).outcome s') := by
  have task : (Renumbering.unchanged s.scopes.size).Tasks 0 ⟨dialect, e, scope⟩
      ⟨dialect, e', scope⟩ :=
    ⟨rfl, equal, Renumbering.unchanged_fixes e, rfl⟩
  have inStep := ((Renumbering.unchanged s.scopes.size).simulates limits).evaluate depth task
  exact inStep.outcomeAlike alike.stores

/-- Two texts that are read as equal trees are read alike with any room. -/
theorem Expr.readAlike_of_same {n n' : Nat} {source source' : Source} {e e' : Expr}
    (parsed : parse n source = .ok e) (parsed' : parse n' source' = .ok e')
    (equal : e.same e' = true) (nesting : Nat) :
    Renumbering.ReadAlike nesting source.text source'.text := by
  intro identity identity'
  have bare := (wellFormed_of_parse parsed).bare_eq_of_same equal
  have middle : EndAlike Place.anywhere (fun e e' => e.bare = e'.bare) (parse nesting source)
      (parse nesting source') := by
    rw [(Grammar.program_of_parse parsed).parse_eq, (Grammar.program_of_parse parsed').parse_eq,
      nesting_eq_of_same equal]
    split
    · exact .ok bare
    · exact .error (.crash _)
  have first : EndAlike Place.anywhere (fun e e' => e.bare = e'.bare)
      (parse nesting ⟨identity, source.text⟩) (parse nesting source) := parse_again nesting rfl
  have last : EndAlike Place.anywhere (fun e e' => e.bare = e'.bare) (parse nesting source')
      (parse nesting ⟨identity', source'.text⟩) := parse_again nesting rfl
  have compose : ∀ a b c : Expr, a.bare = b.bare → b.bare = c.bare → a.bare = c.bare :=
    fun _ _ _ => Eq.trans
  exact (first.trans compose middle).trans compose last

namespace Workspace

/-- Texts that are read as equal trees run alike. -/
theorem run_alike {w : Workspace} {limits : Limits} (standard : w.setting = .standard limits)
    {n n' : Nat} {source source' : Source} {e e' : Expr} (parsed : Expr.parse n source = .ok e)
    (parsed' : Expr.parse n' source' = .ok e') (equal : e.same e' = true) :
    OutcomeAlike (w.runOutcome [source.text]) (w.runOutcome [source'.text]) := by
  have hosts : (Renumbering.unchanged w.store.scopes.size).Hosts limits w w :=
    ⟨standard, standard, rfl, rfl, fun _ => rfl⟩
  have read := Expr.readAlike_of_same parsed parsed' equal limits.nesting
  have alike := (hosts.program_inStep read).outcomeAlike (Store.Alike.refl w.store).stores
  rw [runOutcome_eq, runOutcome_eq, join_singleton, join_singleton]
  exact ⟨reported_alike alike.ends, alike.stores⟩

/-- The text that is written for a tree runs like the one that the tree was read from. -/
theorem run_text {w : Workspace} {limits : Limits} (standard : w.setting = .standard limits)
    {n limit : Nat} {source : Source} {e : Expr} {text : String}
    (parsed : Expr.parse n source = .ok e) (written : e.text limit = .ok text) :
    OutcomeAlike (w.runOutcome [text]) (w.runOutcome [source.text]) := by
  have formed := Expr.wellFormed_of_parse parsed
  have spelled : text = String.ofList e.spelling := by
    unfold Expr.text at written
    split at written
    · cases written
    · split at written <;> cases written
      rfl
  obtain ⟨e', parsed', equal⟩ := @Expr.WellFormed.parse_spelling e formed n
    (Grammar.parse_ok_iff.1 parsed).2 ⟨0, text⟩ (by rw [spelled, String.toList_ofList])
  exact @run_alike w limits standard n n ⟨0, text⟩ source e' e parsed' parsed equal

/-- **Layout does not matter to a run.**  Under whatever limits, two texts that are read as
equal trees run alike in a new workspace: they print corresponding values in the same order
and end with corresponding values, with one text of a failure, or for one lack of room or
rounds.  More generally, trees that differ in spans only evaluate alike in one scope of one
store. -/
theorem run_layout (limits : Limits) :
    (∀ (dialect : DialectId) (reporter : Reporter) (verbose : Bool) (n n' : Nat)
      (source source' : Source) (e e' : Expr), Expr.parse n source = .ok e →
      Expr.parse n' source' = .ok e' → e.same e' = true →
      OutcomeAlike ((new (.standard limits) dialect reporter verbose).runOutcome [source.text])
        ((new (.standard limits) dialect reporter verbose).runOutcome [source'.text])) ∧
    (∀ (depth : Nat) (dialect : DialectId) (scope : ScopeId) (s : Store) (e e' : Expr),
      e.bare = e'.bare →
      OutcomeAlike (((Setting.standard limits).evaluate depth dialect e scope).outcome s)
        (((Setting.standard limits).evaluate depth dialect e' scope).outcome s)) := by
  constructor
  · intro dialect reporter verbose n n' source source' e e' parsed parsed' equal
    exact run_alike rfl parsed parsed' equal
  · intro depth dialect scope s e e' equal
    exact Setting.evaluate_alike limits depth dialect scope equal (.refl s)

/-- Two readings that were compared by evaluation. -/
theorem exists_of_readSame {n n' : Nat} {source source' : Source}
    (read : (match Expr.parse n source, Expr.parse n' source' with
      | .ok e, .ok e' => e.same e'
      | _, _ => false) = true) :
    ∃ e e', Expr.parse n source = .ok e ∧ Expr.parse n' source' = .ok e' ∧ e.same e' = true := by
  split at read
  · rename_i e e' parsed parsed'
    exact ⟨e, e', parsed, parsed', read⟩
  · cases read

/-- A program that prints a function and fails. -/
def compact : Source :=
  ⟨0, "do(print(fun(n,n)),m)"⟩

/-- The same program in another layout. -/
def spacedOut : Source :=
  ⟨1, "do( print(fun(n, n)),\n  m )"⟩

/-- The two layouts run alike, and so do their trees in the lasting scope. -/
theorem run_layout_spacedOut :
    let w := new (.standard .standard) 0 ⟨true, .plain, none⟩ false
    ∃ e e', Expr.parse 4 compact = .ok e ∧ Expr.parse 4 spacedOut = .ok e' ∧ e.same e' = true ∧
      OutcomeAlike (w.runOutcome [compact.text]) (w.runOutcome [spacedOut.text]) ∧
      e.bare = e'.bare ∧
      OutcomeAlike (((Setting.standard .standard).evaluate 5 0 e 1).outcome w.store)
        (((Setting.standard .standard).evaluate 5 0 e' 1).outcome w.store) := by
  obtain ⟨e, e', parsed, parsed', equal⟩ :=
    @exists_of_readSame 4 4 compact spacedOut (by decide +kernel)
  have bare := (Expr.wellFormed_of_parse parsed).bare_eq_of_same equal
  obtain ⟨run, evaluate⟩ := run_layout .standard
  exact ⟨e, e', parsed, parsed', equal, run 0 _ false 4 4 _ _ e e' parsed parsed' equal, bare,
    evaluate 5 0 1 _ e e' bare⟩

end Workspace

end EggLanguage
