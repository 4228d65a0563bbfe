/-
# EggLanguage.Proofs.Histories -- what a workspace holds after any use

A use of a workspace numbers one more source, the text it is given, and leaves functions
behind.  Their bodies were read from sources that were numbered before
(`Workspace.Sound`): this holds in a new workspace, and each use keeps it.  So the bodies that
a program may call are programs themselves, and none of them was read from its source.

From there `Sound.program_stops` says once how a program stops, and the rest follows: it stops
in ordinary ways only (`Sound.ordinary`), so that a run ends with a value, with the text of a
failure, or at a limit (`Workspace.run_ends`); and a failure is placed in the text of the
program (`Sound.placed`).
-/
import EggLanguage.Proofs.Blame
import EggLanguage.Proofs.Isolation
import EggLanguage.Proofs.RunningOut
import EggLanguage.Proofs.Stopping

namespace EggLanguage

set_option autoImplicit false

/-! ## Bodies and their sources -/

/-- The expression is a program, and its nodes were read from sources with smaller numbers. -/
structure ReadBefore (n : Nat) (e : Expr) : Prop where
  formed : e.WellFormed
  sources : ∀ x ∈ e.nodes, ∀ span, x.span? = some span →
    ∃ source, span.source = some source ∧ source.identity < n

namespace ReadBefore

variable {n : Nat} {e : Expr}

theorem inherited (n : Nat) : Expr.Inherited (ReadBefore n) := fun _ _ read inside =>
  ⟨read.formed.node inside, fun y node => read.sources y (Expr.mem_nodes_trans node inside)⟩

theorem mono {m : Nat} (read : ReadBefore n e) (le : n ≤ m) : ReadBefore m e where
  formed := read.formed
  sources x node span spanned := by
    obtain ⟨source, from', lt⟩ := read.sources x node span spanned
    exact ⟨source, from', Nat.lt_of_lt_of_le lt le⟩

theorem ne_abstract (read : ReadBefore n e) : e ≠ .abstract := by
  rintro rfl
  exact read.formed

/-- What was read before holds nothing of a source that is read now. -/
theorem foreign (read : ReadBefore n e) (text : String) : Foreign ⟨n, text⟩ e := by
  intro x node span spanned same
  obtain ⟨source, from', lt⟩ := read.sources x node span spanned
  rw [from', Option.map_some, Option.some.injEq] at same
  exact absurd lt (same ▸ Nat.lt_irrefl n)

theorem of_parse {nesting : Nat} {source : Source} (parsed : Expr.parse nesting source = .ok e)
    (earlier : source.identity < n) : ReadBefore n e where
  formed := Expr.wellFormed_of_parse parsed
  sources x node span spanned := ⟨source, readFrom_of_parse parsed x node span spanned, earlier⟩

end ReadBefore

/-- So many sources were numbered, and the bodies of all functions were read from them. -/
def Store.Sourced (n : Nat) (s : Store) : Prop :=
  s.sources = n ∧ s.Holds (ReadBefore n)

theorem Setting.evaluate_sourced {limits : Limits} {n : Nat} (depth : Nat) (dialect : DialectId)
    {e : Expr} (scope : ScopeId) (read : ReadBefore n e) :
    ((standard limits).evaluate depth dialect e scope).Keeps (Store.Sourced n) fun _ => True := by
  have numbers : ((standard limits).evaluate depth dialect e scope).Keeps (fun s => s.sources = n)
      fun _ => True := (sources_maintained n).evaluate_maintains depth dialect e scope trivial
  have bodies := @evaluate_keeps _ limits (ReadBefore.inherited n) depth dialect e scope read
  exact (numbers.and bodies).imp fun _ _ => trivial

/-! ## How a program runs -/

namespace Workspace

variable {w : Workspace}

/-- Reading and evaluating a source that has its number already. -/
def programOf (w : Workspace) (source : Source) (choice : ScopeChoice) : Eval Value := do
  let e ← Eval.ofExcept (Expr.parse w.setting.limits.nesting source)
  let scope ← w.scopeOf choice
  w.logging e
  w.setting.run w.dialect e scope

/-- A program is the evaluation of a new source. -/
theorem program_outcome (w : Workspace) (text : String) (choice : ScopeChoice) (s : Store) :
    (w.program text choice).outcome s =
      (w.programOf (s.newSource text).1 choice).outcome (s.newSource text).2 := by
  rw [program, reading, bind_assoc, Eval.outcome_bind]
  rfl

theorem scopeOf_stops {choice : ScopeChoice} {s s' : Store} {stop : Stop} :
    ¬ (w.scopeOf choice).Stops s stop s' := by
  cases choice with
  | fresh => exact Eval.stops_step
  | lasting => exact Eval.stops_pure

theorem scopeOf_keeps (w : Workspace) (choice : ScopeChoice) {inv : Store → Prop}
    (made : ∀ s parent, inv s → inv (s.newScope [] parent).2) :
    (w.scopeOf choice).Keeps inv fun _ => True := by
  cases choice with
  | fresh => exact .step fun s start => ⟨made s _ start, trivial⟩
  | lasting => exact .pure trivial

/-- All that stops the logging of a program is a stack without room for writing it. -/
theorem logging_stops {e : Expr} (formed : e.WellFormed) {s s' : Store} {stop : Stop}
    (stopped : (w.logging e).Stops s stop s') : stop = .crash .stackExhausted := by
  unfold logging Expr.text at stopped
  rw [if_pos formed.isConcrete] at stopped
  split at stopped
  · split at stopped
    · exact (Eval.stops_pure stopped).elim
    · rename_i c high
      split at high
      · cases high
        exact (Eval.stops_crash.1 stopped).1
      · cases high
  · exact (Eval.stops_pure stopped).elim

section

variable {limits : Limits} (standard : w.setting = .standard limits)

include standard

/-- A program keeps the origins of bodies, its own source being one of those numbered. -/
theorem programOf_sourced {source : Source} {n : Nat} (numbered : source.identity < n)
    (choice : ScopeChoice) : (w.programOf source choice).Keeps (Store.Sourced n) fun _ => True := by
  have reads : (Eval.ofExcept (Expr.parse w.setting.limits.nesting source)).Keeps (Store.Sourced n)
      (ReadBefore n) := .ofExcept fun e parsed => .of_parse parsed numbered
  have scopes : (w.scopeOf choice).Keeps (Store.Sourced n) fun _ => True :=
    scopeOf_keeps w choice fun s parent start => ⟨start.1, start.2.newScope (List.forall_mem_nil _)⟩
  refine reads.bind fun e read => scopes.bind fun scope _ => (logging_keeps w e _).bind fun _ _ => ?_
  rw [standard]
  exact Setting.evaluate_sourced limits.depth w.dialect scope read

/-- A program stops because its text is refused, because it cannot be logged, or in its
evaluation, which starts from functions that were there before. -/
theorem programOf_stops {source : Source} {choice : ScopeChoice} {K : Expr → Prop} {s s' : Store}
    (holds : s.Holds K) {stop : Stop} (stopped : (w.programOf source choice).Stops s stop s') :
    Expr.parse limits.nesting source = .error stop ∨
      ∃ e, Expr.parse limits.nesting source = .ok e ∧
        (stop = .crash .stackExhausted ∨ ∃ scope s₁, s₁.Holds K ∧
          ((Setting.standard limits).evaluate limits.depth w.dialect e scope).Stops s₁ stop s') := by
  have nesting : w.setting.limits.nesting = limits.nesting := by rw [standard]; rfl
  rw [programOf, nesting] at stopped
  obtain refused | ⟨e, s₁, read, afterReading⟩ := Eval.stops_bind.1 stopped
  · exact .inl (Eval.stops_ofExcept.1 refused).1
  obtain ⟨parsed, rfl⟩ := Eval.gives_ofExcept.1 read
  refine .inr ⟨e, parsed, ?_⟩
  obtain scopeless | ⟨scope, s₂, entered, afterEntering⟩ := Eval.stops_bind.1 afterReading
  · exact (scopeOf_stops scopeless).elim
  have scopes : (w.scopeOf choice).Keeps (Store.Holds K) fun _ => True :=
    scopeOf_keeps w choice fun s parent start => start.newScope (List.forall_mem_nil _)
  have holds₂ := (scopes.gives holds entered).1
  obtain unlogged | ⟨_, s₃, logged, evaluation⟩ := Eval.stops_bind.1 afterEntering
  · exact .inl (logging_stops (Expr.wellFormed_of_parse parsed) unlogged)
  have holds₃ := ((logging_keeps w e _).gives holds₂ logged).1
  rw [standard] at evaluation
  exact .inr ⟨scope, s₃, holds₃, evaluation⟩

end

/-! ## Histories -/

/-- A workspace for the standard forms, in which all bodies were read from numbered
sources. -/
structure Sound (limits : Limits) (w : Workspace) : Prop where
  setting : w.setting = .standard limits
  bodies : w.store.Holds (ReadBefore w.store.sources)

namespace Sound

variable {limits : Limits}

theorem new (limits : Limits) (dialect : DialectId) (reporter : Reporter) (verbose : Bool) :
    (Workspace.new (.standard limits) dialect reporter verbose).Sound limits where
  setting := rfl
  bodies := by
    have global : ∀ bound ∈ Store.globalBindings, bound.2.Holds (ReadBefore 0) := by
      intro bound member
      obtain ⟨c, same⟩ := Store.globalBindings_constant bound member
      rw [same]
      trivial
    have empty : Store.empty.Holds (ReadBefore 0) := fun _ member =>
      absurd member (Array.not_mem_empty _)
    exact (empty.newScope global).newScope (List.forall_mem_nil _)

variable (sound : w.Sound limits)

include sound

theorem newSource (text : String) : (w.store.newSource text).2.Sourced (w.store.sources + 1) :=
  ⟨rfl, Store.Holds.imp (fun _ read => read.mono (Nat.le_succ _)) sound.bodies⟩

theorem program_sourced (text : String) (choice : ScopeChoice) :
    ((w.program text choice).outcome w.store).2.Sourced (w.store.sources + 1) := by
  rw [program_outcome]
  exact (programOf_sourced sound.setting (Nat.lt_succ_self _) choice).outcome (sound.newSource text)

theorem reading_sourced (text : String) :
    ((w.reading text).outcome w.store).2.Sourced (w.store.sources + 1) := by
  rw [reading, Eval.outcome_bind]
  exact sound.newSource text

theorem later {w' : Workspace} (continues : w.Continues w')
    (store : w'.store.Sourced (w.store.sources + 1)) : w'.Sound limits where
  setting := continues.setting.trans sound.setting
  bodies := by
    rw [store.1]
    exact store.2

/-- However a program is evaluated and however it ends, the workspace stays sound. -/
theorem evaluate (fragments : List String) (choice : ScopeChoice) (path : Option String) :
    ((evaluate fragments choice path).outcome w).2.Sound limits := by
  obtain ⟨-, store, continues⟩ := evaluate_follows w fragments choice path
  exact sound.later continues (store ▸ sound.program_sourced _ _)

theorem use (used : Use) : (w.use used).Sound limits := by
  cases used with
  | run fragments =>
      obtain ⟨-, store, continues⟩ := run_follows w fragments
      exact sound.later continues (store ▸ sound.program_sourced _ _)
  | evaluate fragments choice path => exact sound.evaluate fragments choice path
  | parse fragments path =>
      obtain ⟨-, store, continues⟩ := parse_follows w fragments path
      exact sound.later continues (store ▸ sound.reading_sourced _)

theorem after (uses : List Use) : (w.after uses).Sound limits := by
  induction uses generalizing w with
  | nil => exact sound
  | cons first rest ih => exact ih (sound.use first)

variable {text : String} {choice : ScopeChoice} {s' : Store}

/-- How a program stops: its text is refused, it cannot be logged, or its evaluation stops, in
a store that holds no body from its text. -/
theorem program_stops {stop : Stop} (stopped : (w.program text choice).Stops w.store stop s') :
    Expr.parse limits.nesting ⟨w.store.sources, text⟩ = .error stop ∨
      ∃ e, Expr.parse limits.nesting ⟨w.store.sources, text⟩ = .ok e ∧
        (stop = .crash .stackExhausted ∨ ∃ scope s₁, s₁.Holds (ReadBefore w.store.sources) ∧
          ((Setting.standard limits).evaluate limits.depth w.dialect e scope).Stops s₁ stop s') := by
  rw [Eval.Stops, program_outcome] at stopped
  have holds : (w.store.newSource text).2.Holds (ReadBefore w.store.sources) := sound.bodies
  exact programOf_stops sound.setting holds stopped

theorem ordinary {stop : Stop} (stopped : (w.program text choice).Stops w.store stop s') :
    stop.Ordinary := by
  obtain refused | ⟨e, parsed, rfl | ⟨scope, s₁, holds, stopped⟩⟩ := sound.program_stops stopped
  · obtain ⟨f, rfl, grammar⟩ | ⟨rfl, -⟩ := Grammar.refused_of_parse refused
    · exact .failure (by rw [grammar]; rfl)
    · exact .limit rfl
  · exact .limit rfl
  · have read := ReadBefore.of_parse parsed (Nat.lt_succ_self _)
    have holds' : s₁.Holds (ReadBefore (w.store.sources + 1)) :=
      Store.Holds.imp (fun _ read => read.mono (Nat.le_succ _)) holds
    exact Setting.evaluate_orderly (ReadBefore.inherited _) (fun _ read => read.ne_abstract)
      limits.depth w.dialect e scope read s₁ stop s' holds' stopped

theorem evaluate_ordinary {fragments : List String} {path : Option String} {stop : Stop}
    (stopped : ((Workspace.evaluate fragments choice path).outcome w).1 = .error stop) :
    stop.Ordinary := by
  rw [(evaluate_follows w fragments choice path).result] at stopped
  exact sound.ordinary (Eval.stops_of_outcome stopped)

/-- A failure of a program is placed in its text, or at its end if the text is refused. -/
theorem placed {f : Failure} (failed : (w.program text choice).Fails w.store f s') :
    ∃ offset stop, f.place = ⟨some offset, some stop, some ⟨w.store.sources, text⟩⟩ ∧
      offset ≤ text.length ∧
      ∀ e, Expr.parse limits.nesting ⟨w.store.sources, text⟩ = .ok e → offset < text.length := by
  obtain refused | ⟨e, parsed, crash | ⟨scope, s₁, holds, stopped⟩⟩ := sound.program_stops failed
  · obtain ⟨height, d, failure, -⟩ := Expr.failsAt_of_parse refused
    obtain ⟨stop, place⟩ := failure.place
    obtain ⟨_, passes⟩ := failure.passes
    have length := passes.position_add
    simp only [String.length_toList] at length
    refine ⟨d.position, stop, place, by omega, fun e parsed => ?_⟩
    rw [refused] at parsed
    cases parsed
  · cases crash
  · have known : s₁.Holds (Known ⟨w.store.sources, text⟩ e) :=
      Store.Holds.imp (fun _ read => .inr (read.foreign text)) holds
    obtain ⟨start, stop, place, node, inside, spanned⟩ := (Expr.blame parsed known stopped).node
    have span := Expr.span_of_parse parsed inside spanned
    have within : start < text.length := Nat.lt_of_lt_of_le span.1 span.2
    exact ⟨start, stop, place, Nat.le_of_lt within, fun _ _ => within⟩

theorem evaluate_placed {fragments : List String} {path : Option String} {f : Failure}
    (failed : ((Workspace.evaluate fragments choice path).outcome w).1 = .error (.failure f)) :
    ∃ offset stop,
      f.place = ⟨some offset, some stop, some ⟨w.store.sources, join fragments⟩⟩ ∧
      offset ≤ (join fragments).length ∧
      ∀ e, Expr.parse limits.nesting ⟨w.store.sources, join fragments⟩ = .ok e →
        offset < (join fragments).length := by
  rw [(evaluate_follows w fragments choice path).result] at failed
  exact sound.placed (Eval.stops_of_outcome failed)

end Sound

/-- **How runs end.**  Whatever a workspace was used for, a run in it ends with the value of the
program; or with a text that says what kind of failure it was, a mistake of grammar, a name that
is not bound, or a value of the wrong type; or at a limit of the machine. -/
theorem run_ends (limits : Limits) (dialect : DialectId) (reporter : Reporter) (verbose : Bool)
    (uses : List Use) (fragments : List String) :
    let w := (new (.standard limits) dialect reporter verbose).after uses
    let program := ((evaluate fragments .fresh none).outcome w).1
    let ended := ((run fragments).outcome w).1
    (∃ value, program = .ok value ∧ ended = .ok value) ∨
      (∃ f, program = .error (.failure f) ∧
        f.cause.kind.name ∈ ["SyntaxError", "ReferenceError", "TypeError"] ∧
        ended = .ok (.string (f.cause.kind.name ++ ": " ++ f.cause.message))) ∨
      ∃ c ∈ [Crash.stackExhausted, .outOfMemory, .unfinished],
        program = .error (.crash c) ∧ ended = .error (.crash c) := by
  intro w program ended
  have sound : w.Sound limits := (Sound.new limits dialect reporter verbose).after uses
  have ended_eq : ended = reported program := by
    show _ = reported ((evaluate fragments .fresh none).outcome w).1
    rw [(evaluate_follows w fragments .fresh none).result]
    exact (run_follows w fragments).1
  cases result : program with
  | ok value =>
      rw [result] at ended_eq
      exact .inl ⟨value, rfl, ended_eq⟩
  | error stop =>
      rw [result] at ended_eq
      cases sound.evaluate_ordinary result with
      | @failure f kind => exact .inr (.inl ⟨f, rfl, Kind.name_of_isOfPrograms kind, ended_eq⟩)
      | @limit c limit => exact .inr (.inr ⟨c, Crash.isLimit_iff.1 limit, rfl, ended_eq⟩)

end Workspace

end EggLanguage
