/-
# EggLanguage.Proofs.Isolation -- runs do not see each other

All runs of a workspace share its global scope, and the scopes and functions of earlier runs
stay in the store.  Still a run gives what it would give in a new workspace
(`Workspace.run_isolated`).

Whatever was run before, the global scope is as it was made (`Workspace.Seeded`): programs
write to the scope they are evaluated in, which is never the global one.  From there on the
run is compared to one in a new workspace.  Only the global scopes and the scopes that the two
runs make correspond (`Renumbering.fromGlobal`), so nothing that was there before is reached.
-/
import EggLanguage.Proofs.Elsewhere
import EggLanguage.Proofs.Locality
import EggLanguage.Proofs.Renumbering

namespace EggLanguage

set_option autoImplicit false

/-! ## The global scope -/

/-- The first scope of the store is the global one as it was made, and it is not alone. -/
structure Store.Seeded (s : Store) : Prop where
  size : 1 < s.scopes.size
  bindings : s.bindings 0 = globalBindings
  parent : s.parent? 0 = none

namespace Store.Seeded

variable {s : Store}

theorem grown {s' : Store} {writable : ScopeId → Prop} (seeded : s.Seeded)
    (grown : s.Grown writable s') (locked : ¬ writable 0) : s'.Seeded where
  size := Nat.lt_of_lt_of_le seeded.size grown.size
  bindings := by
    rw [grown.kept 0 (Nat.zero_lt_of_lt seeded.size) locked, seeded.bindings]
  parent := by rw [grown.parent 0 (Nat.zero_lt_of_lt seeded.size), seeded.parent]

end Store.Seeded

/-- The values of the global scope refer to no scope. -/
theorem Store.globalBindings_constant : ∀ bound ∈ globalBindings, ∃ c, bound.2 = .constant c := by
  simp [globalBindings, Operator.all]

/-! ## Histories -/

namespace Workspace

/-- A workspace whose programs have the standard forms and whose global scope is as it was
made. -/
structure Ready (limits : Limits) (w : Workspace) : Prop where
  setting : w.setting = .standard limits
  globalScope : w.globalScope = 0
  lastingScope : w.lastingScope = 1
  seeded : w.store.Seeded

theorem new_ready (limits : Limits) (dialect : DialectId) (reporter : Reporter) (verbose : Bool) :
    (new (.standard limits) dialect reporter verbose).Ready limits where
  setting := rfl
  globalScope := rfl
  lastingScope := rfl
  seeded := ⟨Nat.lt_succ_self 1, rfl, rfl⟩

theorem Ready.continues {limits : Limits} {w w' : Workspace} (ready : w.Ready limits)
    (continues : w.Continues w') (seeded : w'.store.Seeded) : w'.Ready limits where
  setting := continues.setting.trans ready.setting
  globalScope := continues.globalScope.trans ready.globalScope
  lastingScope := continues.lastingScope.trans ready.lastingScope
  seeded := seeded

section

variable {limits : Limits} {w : Workspace} (ready : w.Ready limits)

theorem reading_seeded (w : Workspace) (text : String) :
    (w.reading text).Keeps Store.Seeded fun _ => True := by
  have numbered : (Eval.step fun s => s.newSource text).Keeps Store.Seeded fun _ => True :=
    .step fun _ seeded => ⟨⟨seeded.size, seeded.bindings, seeded.parent⟩, trivial⟩
  exact numbered.bind fun _ _ => .ofExcept fun _ _ => trivial

include ready

theorem Ready.scopeOf_seeded (choice : ScopeChoice) :
    (w.scopeOf choice).Keeps Store.Seeded (0 < ·) := by
  cases choice with
  | fresh =>
      refine .step fun s seeded => ⟨?_, Nat.zero_lt_of_lt seeded.size⟩
      exact seeded.grown ((Store.Grown.refl (fun _ => False) s).newScope _ _) id
  | lasting =>
      refine .pure ?_
      rw [ready.lastingScope]
      exact Nat.zero_lt_one

/-- A program leaves the global scope as it was. -/
theorem Ready.program_seeded (text : String) (choice : ScopeChoice) :
    (w.program text choice).Keeps Store.Seeded fun _ => True := by
  refine (reading_seeded w text).bind fun e _ => ?_
  refine (ready.scopeOf_seeded choice).bind fun scope positive => ?_
  refine (logging_keeps w e _).bind fun _ _ => .ofOutcome fun s seeded => ?_
  rw [ready.setting]
  have writes := @Setting.evaluate_grown (· = scope) s limits limits.depth w.dialect e scope
    fun _ => rfl
  exact seeded.grown (writes.outcome (.refl _ s)) (Nat.ne_of_lt positive)

end

/-- What one can ask of a workspace. -/
inductive Use where
  | run (fragments : List String)
  | evaluate (fragments : List String) (choice : ScopeChoice) (path : Option String)
  | parse (fragments : List String) (path : Option String)

/-- The workspace after a use, however it ended. -/
def use (w : Workspace) : Use → Workspace
  | .run fragments => ((run fragments).outcome w).2
  | .evaluate fragments choice path => ((evaluate fragments choice path).outcome w).2
  | .parse fragments path => ((parse fragments path).outcome w).2

/-- The workspace after uses, one after another. -/
def after (w : Workspace) (uses : List Use) : Workspace :=
  uses.foldl use w

/-- A use leaves the global scope as it was, and what programs depend on besides the store. -/
theorem Ready.use {limits : Limits} {w : Workspace} (ready : w.Ready limits) (used : Use) :
    (w.use used).Ready limits ∧ w.Continues (w.use used) := by
  cases used with
  | run fragments =>
      obtain ⟨-, store, continues⟩ := run_follows w fragments
      have seeded := (ready.program_seeded (join fragments) .fresh).outcome ready.seeded
      rw [← store] at seeded
      exact ⟨ready.continues continues seeded, continues⟩
  | evaluate fragments choice path =>
      obtain ⟨-, store, continues⟩ := evaluate_follows w fragments choice path
      have seeded := (ready.program_seeded (join fragments) choice).outcome ready.seeded
      rw [← store] at seeded
      exact ⟨ready.continues continues seeded, continues⟩
  | parse fragments path =>
      obtain ⟨-, store, continues⟩ := parse_follows w fragments path
      have seeded := (reading_seeded w (join fragments)).outcome ready.seeded
      rw [← store] at seeded
      exact ⟨ready.continues continues seeded, continues⟩

theorem Ready.after {limits : Limits} {w : Workspace} (ready : w.Ready limits) (uses : List Use) :
    (w.after uses).Ready limits ∧ w.Continues (w.after uses) := by
  induction uses generalizing w with
  | nil => exact ⟨ready, .refl w⟩
  | cons first rest ih =>
      obtain ⟨next, continues⟩ := ready.use first
      obtain ⟨last, continues'⟩ := ih next
      exact ⟨last, continues.trans continues'⟩

end Workspace

/-! ## Two runs side by side -/

namespace Renumbering

/-- The global scopes of two stores correspond, and the scopes and functions made from here
on do. -/
def fromGlobal (s s' : Store) (nonempty : 0 < s.scopes.size) (nonempty' : 0 < s'.scopes.size) :
    Renumbering where
  scopes n i i' := i = 0 ∧ i' = 0 ∨ ∃ k < n, i = s.scopes.size + k ∧ i' = s'.scopes.size + k
  functions a a' := ∃ k, a = s.functions + k ∧ a' = s'.functions + k
  size := s.scopes.size
  size' := s'.scopes.size
  printed := s.printed.toList
  printed' := s'.printed.toList
  later := by
    rintro n m i i' le (both | ⟨k, lt, same⟩)
    · exact .inl both
    · exact .inr ⟨k, Nat.lt_of_lt_of_le lt le, same⟩
  new n := .inr ⟨n, Nat.lt_succ_self n, rfl, rfl⟩
  old := by
    rintro n i i' (both | ⟨k, lt, rfl, rfl⟩) other
    · exact .inl both
    · have ne : k ≠ n := fun same => other (congrArg (s.scopes.size + ·) same)
      exact .inr ⟨k, by omega, rfl, rfl⟩
  scopes_unique := by
    rintro n i i' j j' (⟨rfl, rfl⟩ | ⟨k, -, rfl, rfl⟩) (⟨rfl, rfl⟩ | ⟨l, -, rfl, rfl⟩) <;> omega
  functions_unique := by
    rintro a a' b b' ⟨k, rfl, rfl⟩ ⟨l, rfl, rfl⟩
    omega
  aligned := .inr <| by
    rintro n i i' (⟨rfl, rfl⟩ | ⟨k, lt, rfl, rfl⟩) <;> omega

theorem fromGlobal_stores {s s' : Store} (seeded : s.Seeded) (seeded' : s'.Seeded) :
    (fromGlobal s s' (Nat.zero_lt_of_lt seeded.size) (Nat.zero_lt_of_lt seeded'.size)).Stores 0
      s s' where
  size := rfl
  size' := rfl
  functions k := ⟨k, rfl, rfl⟩
  bindings := by
    rintro i i' (⟨rfl, rfl⟩ | ⟨k, none, -⟩)
    · rw [seeded.bindings, seeded'.bindings]
      refine List.forall₂_same.2 fun bound member => ⟨rfl, ?_⟩
      obtain ⟨c, same⟩ := Store.globalBindings_constant bound member
      rw [same]
      exact .constant c
    · exact absurd none (Nat.not_lt_zero k)
  parents := by
    rintro i i' (⟨rfl, rfl⟩ | ⟨k, none, -⟩)
    · rw [seeded.parent, seeded'.parent]
      exact .none
    · exact absurd none (Nat.not_lt_zero k)
  aligned := .inr <| by
    rintro i i' (⟨rfl, rfl⟩ | ⟨k, none, -⟩)
    · rw [seeded.parent, seeded'.parent]
      exact ⟨fun p absent => (nomatch absent), fun p absent => (nomatch absent)⟩
    · exact absurd none (Nat.not_lt_zero k)
  printed := ⟨[], [], (List.append_nil _).symm, (List.append_nil _).symm, .nil⟩

end Renumbering

/-- Functions with the same parameters and, but for spans, the same body. -/
def Closure.Similar (f f' : Closure) : Prop :=
  f.parameters = f'.parameters ∧ f.body.bare = f'.body.bare

theorem Renumbering.Closures.similar {r : Renumbering} {n : Nat} {f f' : Closure}
    (related : r.Closures n f f') : f.Similar f' :=
  ⟨related.parameters, related.body⟩

namespace Workspace

/-- Two workspaces with whatever histories run a program alike. -/
theorem Ready.run_similar {limits : Limits} {w w' : Workspace} (ready : w.Ready limits)
    (ready' : w'.Ready limits) (dialect : w.dialect = w'.dialect) (verbose : w.verbose = w'.verbose)
    (fragments : List String) :
    EndAlike Place.anywhere (Value.Paired Closure.Similar) (w.runOutcome fragments).1
        (w'.runOutcome fragments).1 ∧
      ∃ made made', (w.runOutcome fragments).2.printed.toList = w.store.printed.toList ++ made ∧
        (w'.runOutcome fragments).2.printed.toList = w'.store.printed.toList ++ made' ∧
        made.Forall₂ (Value.Paired Closure.Similar) made' := by
  have stores := Renumbering.fromGlobal_stores ready.seeded ready'.seeded
  generalize below : Renumbering.fromGlobal w.store w'.store _ _ = r at stores
  have global : ∀ n, r.scopes n 0 0 := fun _ => below ▸ .inl ⟨rfl, rfl⟩
  have hosts : r.Hosts limits w w' :=
    ⟨ready.setting, ready'.setting, dialect, verbose, fun n => by
      rw [ready.globalScope, ready'.globalScope]
      exact global n⟩
  have read : Renumbering.ReadAlike limits.nesting (join fragments) (join fragments) :=
    fun _ _ => Expr.parse_again limits.nesting rfl
  obtain ⟨later, -, stores', ends⟩ := hosts.program_inStep read w.store w'.store stores
  have similar : ∀ v v', r.correspondence.values later v v' → v.Paired Closure.Similar v' :=
    fun v v' paired => paired.imp fun f f' => Renumbering.Closures.similar
  obtain ⟨made, made', all, all', pairs⟩ := stores'.printed
  rw [runOutcome_eq, runOutcome_eq]
  refine ⟨reported_alike (ends.imp (fun _ _ => id) similar), made, made', ?_, ?_, pairs.imp similar⟩
  · rw [all, ← below]
    rfl
  · rw [all', ← below]
    rfl

/-- **Runs are isolated.**  Whatever a workspace was used for, and however that ended, a run
in it ends as in a new workspace, and prints the same values after those that were printed
before. -/
theorem run_isolated (limits : Limits) (dialect : DialectId) (reporter : Reporter) (verbose : Bool)
    (uses : List Use) (fragments : List String) :
    let fresh := new (.standard limits) dialect reporter verbose
    let used := fresh.after uses
    EndAlike Place.anywhere (Value.Paired Closure.Similar) (used.runOutcome fragments).1
        (fresh.runOutcome fragments).1 ∧
      ∃ printed, (used.runOutcome fragments).2.printed.toList = used.store.printed.toList ++ printed ∧
        printed.Forall₂ (Value.Paired Closure.Similar)
          (fresh.runOutcome fragments).2.printed.toList := by
  intro fresh used
  have ready : fresh.Ready limits := new_ready limits dialect reporter verbose
  obtain ⟨ready', continues⟩ := ready.after uses
  obtain ⟨ends, printed, printed', all, all', pairs⟩ :=
    ready'.run_similar ready continues.dialect continues.verbose fragments
  refine ⟨ends, printed, all, ?_⟩
  rw [all']
  exact pairs

end Workspace

end EggLanguage
