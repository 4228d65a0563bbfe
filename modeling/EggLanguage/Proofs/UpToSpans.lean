/-
# EggLanguage.Proofs.UpToSpans -- trees without the places they were read from

`Expr.bare` takes the spans out of a tree, those in the bodies of functions included.
Trees with one bare tree have nodes of the same kinds with the same contents
(`Expr.alike_of_bare_eq`), and whatever does not ask for spans sees no difference.  For
trees that program texts denote this is equality of trees (`WellFormed.bare_eq_of_same`),
and functions made from such trees correspond (`Closure.Alike`).
-/
import EggLanguage.Proofs.Simulation
import EggLanguage.Proofs.Spelling

namespace EggLanguage

set_option autoImplicit false

/-! ## Trees -/

/-- A span that stands for any other. -/
def Span.nowhere : Span :=
  ⟨0, 0, none⟩

namespace Expr

mutual

/-- The tree with every span changed. -/
def mapSpans (change : Span → Span) : Expr → Expr
  | literal value span => literal value (change span)
  | word name span => word name (change span)
  | apply operator args span =>
      apply (operator.mapSpans change) (mapSpansOfArgs change args) (change span)
  | function identity parameters body scope dialect span =>
      function identity parameters (body.mapSpans change) scope dialect (change span)
  | abstract => abstract

def mapSpansOfArgs (change : Span → Span) : List Expr → List Expr
  | [] => []
  | e :: rest => e.mapSpans change :: mapSpansOfArgs change rest

end

/-- The tree without its spans. -/
def bare (e : Expr) : Expr :=
  e.mapSpans fun _ => .nowhere

theorem mapSpansOfArgs_eq_map (change : Span → Span) (args : List Expr) :
    mapSpansOfArgs change args = args.map (mapSpans change) := by
  induction args with
  | nil => rfl
  | cons e rest ih => rw [mapSpansOfArgs, ih, List.map_cons]

mutual

theorem mapSpans_mapSpans (change change' : Span → Span) :
    ∀ e : Expr, (e.mapSpans change).mapSpans change' = e.mapSpans (change' ∘ change)
  | literal _ _ => rfl
  | word _ _ => rfl
  | apply operator args _ => by
      simp only [mapSpans, mapSpans_mapSpans change change' operator,
        mapSpansOfArgs_mapSpansOfArgs change change' args, Function.comp]
  | function _ _ body _ _ _ => by
      simp only [mapSpans, mapSpans_mapSpans change change' body, Function.comp]
  | abstract => rfl

theorem mapSpansOfArgs_mapSpansOfArgs (change change' : Span → Span) :
    ∀ args : List Expr, mapSpansOfArgs change' (mapSpansOfArgs change args) =
      mapSpansOfArgs (change' ∘ change) args
  | [] => rfl
  | e :: rest => by
      simp only [mapSpansOfArgs, mapSpans_mapSpans change change' e,
        mapSpansOfArgs_mapSpansOfArgs change change' rest]

end

@[simp] theorem bare_literal (c : Constant) (span : Span) :
    (literal c span).bare = literal c .nowhere :=
  rfl

@[simp] theorem bare_word (name : String) (span : Span) :
    (word name span).bare = word name .nowhere :=
  rfl

@[simp] theorem bare_apply (operator : Expr) (args : List Expr) (span : Span) :
    (apply operator args span).bare = apply operator.bare (args.map bare) .nowhere := by
  rw [bare, mapSpans, mapSpansOfArgs_eq_map]
  rfl

@[simp] theorem bare_function (identity : Nat) (parameters : List String) (body : Expr)
    (scope : ScopeId) (dialect : DialectId) (span : Span) :
    (function identity parameters body scope dialect span).bare =
      function identity parameters body.bare scope dialect .nowhere :=
  rfl

@[simp] theorem bare_abstract : abstract.bare = abstract :=
  rfl

theorem bare_mapSpans (change : Span → Span) (e : Expr) : (e.mapSpans change).bare = e.bare :=
  mapSpans_mapSpans change _ e

/-! ## What does not depend on spans -/

mutual

@[simp] theorem height_mapSpans (change : Span → Span) :
    ∀ e : Expr, (e.mapSpans change).height = e.height
  | literal _ _ => rfl
  | word _ _ => rfl
  | apply operator args _ => by
      rw [mapSpans, height, height, height_mapSpans change operator,
        heightOfArgs_mapSpansOfArgs change args]
  | function _ _ body _ _ _ => by rw [mapSpans, height, height, height_mapSpans change body]
  | abstract => rfl

@[simp] theorem heightOfArgs_mapSpansOfArgs (change : Span → Span) :
    ∀ args : List Expr, heightOfArgs (mapSpansOfArgs change args) = heightOfArgs args
  | [] => rfl
  | e :: rest => by
      rw [mapSpansOfArgs, heightOfArgs, heightOfArgs, height_mapSpans change e,
        heightOfArgs_mapSpansOfArgs change rest]

end

theorem height_eq_of_bare_eq {e e' : Expr} (equal : e.bare = e'.bare) : e.height = e'.height := by
  rw [← height_mapSpans (fun _ => .nowhere) e, ← height_mapSpans (fun _ => .nowhere) e']
  exact congrArg height equal

mutual

@[simp] theorem nesting_mapSpans (change : Span → Span) :
    ∀ e : Expr, (e.mapSpans change).nesting = e.nesting
  | literal _ _ => rfl
  | word _ _ => rfl
  | apply operator args _ => by
      rw [mapSpans, nesting, nesting, nesting_mapSpans change operator,
        nestingOfArgs_mapSpansOfArgs change args]
  | function _ _ _ _ _ _ => rfl
  | abstract => rfl

@[simp] theorem nestingOfArgs_mapSpansOfArgs (change : Span → Span) :
    ∀ args : List Expr, nestingOfArgs (mapSpansOfArgs change args) = nestingOfArgs args
  | [] => rfl
  | e :: rest => by
      rw [mapSpansOfArgs, nestingOfArgs, nestingOfArgs, nesting_mapSpans change e,
        nestingOfArgs_mapSpansOfArgs change rest]

end

theorem nesting_eq_of_bare_eq {e e' : Expr} (equal : e.bare = e'.bare) : e.nesting = e'.nesting := by
  rw [← nesting_mapSpans (fun _ => .nowhere) e, ← nesting_mapSpans (fun _ => .nowhere) e']
  exact congrArg nesting equal

mutual

@[simp] theorem isConcrete_mapSpans (change : Span → Span) :
    ∀ e : Expr, (e.mapSpans change).isConcrete = e.isConcrete
  | literal _ _ => rfl
  | word _ _ => rfl
  | apply operator args _ => by
      rw [mapSpans, isConcrete, isConcrete, isConcrete_mapSpans change operator,
        areConcrete_mapSpansOfArgs change args]
  | function _ _ body _ _ _ => by
      rw [mapSpans, isConcrete, isConcrete, isConcrete_mapSpans change body]
  | abstract => rfl

@[simp] theorem areConcrete_mapSpansOfArgs (change : Span → Span) :
    ∀ args : List Expr, areConcrete (mapSpansOfArgs change args) = areConcrete args
  | [] => rfl
  | e :: rest => by
      rw [mapSpansOfArgs, areConcrete, areConcrete, isConcrete_mapSpans change e,
        areConcrete_mapSpansOfArgs change rest]

end

theorem form?_mapSpans (dialect : Dialect) (change : Span → Span) (e : Expr) :
    dialect.form? (e.mapSpans change) = dialect.form? e := by
  cases e <;> rfl

theorem outline_literal (value : Constant) (span : Span) :
    (literal value span).outline = "Literal(value=".toList ++ value.outline ++ [')'] := by
  rw [outline.eq_def]

theorem outline_word (name : String) (span : Span) :
    (word name span).outline = "VariableRef(name=".toList ++ Text.quoted name.toList ++ [')'] := by
  rw [outline.eq_def]

theorem outline_apply (operator : Expr) (args : List Expr) (span : Span) :
    (apply operator args span).outline =
      "Apply(operator=".toList ++ operator.outline ++ ", args=".toList ++
        outlineParts (outlines args) ++ [')'] := by
  rw [outline.eq_def]

theorem outline_function (identity : Nat) (parameters : List String) (body : Expr) (scope : ScopeId)
    (dialect : DialectId) (span : Span) :
    (function identity parameters body scope dialect span).outline =
      "Literal(value=".toList ++ outlineFunction parameters body.outline ++ [')'] := by
  rw [outline.eq_def]

mutual

theorem outline_mapSpans (change : Span → Span) :
    ∀ e : Expr, (e.mapSpans change).outline = e.outline
  | literal _ _ => by rw [mapSpans, outline_literal, outline_literal]
  | word _ _ => by rw [mapSpans, outline_word, outline_word]
  | apply operator args _ => by
      rw [mapSpans, outline_apply, outline_apply, outline_mapSpans change operator,
        outlines_mapSpansOfArgs change args]
  | function _ _ body _ _ _ => by
      rw [mapSpans, outline_function, outline_function, outline_mapSpans change body]
  | abstract => rfl

theorem outlines_mapSpansOfArgs (change : Span → Span) :
    ∀ args : List Expr, outlines (mapSpansOfArgs change args) = outlines args
  | [] => rfl
  | e :: rest => by
      rw [mapSpansOfArgs, outlines, outlines, outline_mapSpans change e,
        outlines_mapSpansOfArgs change rest]

end

mutual

theorem spelling_mapSpans (change : Span → Span) :
    ∀ e : Expr, (e.mapSpans change).spelling = e.spelling
  | literal _ _ => rfl
  | word _ _ => rfl
  | apply operator args _ => by
      rw [mapSpans, spelling, spelling, spelling_mapSpans change operator,
        spellArgs_mapSpansOfArgs change args]
  | function _ _ body _ _ _ => by rw [mapSpans, spelling, spelling, outline_mapSpans change body]
  | abstract => rfl

theorem spellArgs_mapSpansOfArgs (change : Span → Span) :
    ∀ args : List Expr, spellArgs (mapSpansOfArgs change args) = spellArgs args
  | [] => rfl
  | e :: rest => by
      rw [mapSpansOfArgs, spellArgs, spellArgs, spelling_mapSpans change e,
        spellMoreArgs_mapSpansOfArgs change rest]

theorem spellMoreArgs_mapSpansOfArgs (change : Span → Span) :
    ∀ args : List Expr, spellMoreArgs (mapSpansOfArgs change args) = spellMoreArgs args
  | [] => rfl
  | e :: rest => by
      rw [mapSpansOfArgs, spellMoreArgs, spellMoreArgs, spelling_mapSpans change e,
        spellMoreArgs_mapSpansOfArgs change rest]

end

/-- Trees with one bare tree are written alike. -/
theorem text_eq_of_bare_eq {e e' : Expr} (equal : e.bare = e'.bare) (limit : Nat) :
    e.text limit = e'.text limit := by
  have written : ∀ e : Expr, e.bare.text limit = e.text limit := fun e => by
    rw [text, text, bare, height_mapSpans, isConcrete_mapSpans, spelling_mapSpans]
  rw [← written e, ← written e', equal]

/-! ## Trees with one bare tree -/

/-- Nodes of one kind with the same contents, whose parts are alike. -/
inductive Alike : Expr → Expr → Prop where
  | literal (c : Constant) (span span' : Span) : Alike (.literal c span) (.literal c span')
  | word (name : String) (span span' : Span) : Alike (.word name span) (.word name span')
  | apply {operator operator' : Expr} {args args' : List Expr} (span span' : Span)
      (applied : operator.bare = operator'.bare)
      (each : args.Forall₂ (fun e e' => e.bare = e'.bare) args') :
      Alike (.apply operator args span) (.apply operator' args' span')
  | function (identity : Nat) (parameters : List String) {body body' : Expr} (scope : ScopeId)
      (dialect : DialectId) (span span' : Span) (bodies : body.bare = body'.bare) :
      Alike (.function identity parameters body scope dialect span)
        (.function identity parameters body' scope dialect span')
  | abstract : Alike .abstract .abstract

theorem alike_of_bare_eq {e e' : Expr} (equal : e.bare = e'.bare) : Alike e e' := by
  cases e <;> cases e' <;> simp only [bare_literal, bare_word, bare_apply,
    bare_function, bare_abstract, reduceCtorEq] at equal
  case literal.literal c span c' span' =>
    cases equal
    exact .literal c span span'
  case word.word name span name' span' =>
    cases equal
    exact .word name span span'
  case apply.apply operator args span operator' args' span' =>
    obtain ⟨applied, each, -⟩ := Expr.apply.inj equal
    have pairs : (args.map bare).Forall₂ (· = ·) (args'.map bare) := each ▸ List.forall₂_refl _
    exact .apply span span' applied
      (List.forall₂_map_right_iff.1 (List.forall₂_map_left_iff.1 pairs))
  case function.function identity parameters body scope dialect span _ _ body' _ _ span' =>
    obtain ⟨rfl, rfl, bodies, rfl, rfl, -⟩ := Expr.function.inj equal
    exact .function identity parameters scope dialect span span' bodies
  case abstract.abstract => exact .abstract

mutual

/-- Trees of programs that are equal have one bare tree. -/
theorem WellFormed.bare_eq_of_same : ∀ {e e' : Expr}, e.WellFormed → e.same e' = true →
    e.bare = e'.bare
  | literal (.int _) _, literal (.int _) _, _, equal => by
      rw [bare_literal, bare_literal, eq_of_beq equal]
  | literal (.string _) _, literal (.string _) _, _, equal => by
      rw [bare_literal, bare_literal, eq_of_beq equal]
  | word _ _, word _ _, _, equal => by rw [bare_word, bare_word, eq_of_beq equal]
  | apply _ _ _, apply _ _ _, formed, equal => by
      rw [same, Bool.and_eq_true] at equal
      rw [bare_apply, bare_apply, formed.1.bare_eq_of_same equal.1,
        AreWellFormed.map_bare_eq_of_sameArgs formed.2 equal.2]

theorem AreWellFormed.map_bare_eq_of_sameArgs : ∀ {es es' : List Expr}, AreWellFormed es →
    sameArgs es es' = true → es.map bare = es'.map bare
  | [], [], _, _ => rfl
  | _ :: _, _ :: _, formed, equal => by
      rw [sameArgs, Bool.and_eq_true] at equal
      rw [List.map_cons, List.map_cons, formed.1.bare_eq_of_same equal.1,
        AreWellFormed.map_bare_eq_of_sameArgs formed.2 equal.2]

end

end Expr

/-! ## Forms applied to trees with one bare tree -/

theorem Dialect.form?_eq_of_bare_eq {e e' : Expr} (equal : e.bare = e'.bare) (dialect : Dialect) :
    dialect.form? e = dialect.form? e' := by
  have known := Expr.form?_mapSpans dialect (fun _ => .nowhere) e
  exact known.symm.trans ((congrArg dialect.form? equal).trans (Expr.form?_mapSpans dialect _ e'))

/-- What a form sees of two arguments without evaluating them: both are words, the second with its
name changed, or neither is. -/
inductive Expr.Shaped (rename : String → String) : Expr → Expr → Prop where
  | word (name : String) (span span' : Span) :
      Shaped rename (.word name span) (.word (rename name) span')
  | other {e e' : Expr} (noWord : e.isWord = false) (noWord' : e'.isWord = false)
      (placed : e.place?.isSome = e'.place?.isSome) : Shaped rename e e'

theorem Expr.shaped_of_bare_eq {e e' : Expr} (equal : e.bare = e'.bare) : Shaped id e e' := by
  cases alike_of_bare_eq equal with
  | word name span span' => exact .word name span span'
  | literal c span span' => exact .other rfl rfl rfl
  | apply span span' applied each => exact .other rfl rfl rfl
  | function identity parameters scope dialect span span' bodies => exact .other rfl rfl rfl
  | abstract => exact .other rfl rfl rfl

theorem Form.parameterNames_of_noWord {e : Expr} (noWord : e.isWord = false) (rest : List Expr) :
    parameterNames (e :: rest) =
      match e.place? with
      | some place => .error (.failure ⟨.parameterNotWord, place⟩)
      | none => .error (.crash .abstractPlace) := by
  cases e with
  | word name span => cases noWord
  | _ => rfl

/-- Parameters of one shape, where places do not count. -/
theorem Form.parameterNames_shaped {places : Place → Place → Prop} (anywhere : ∀ p p', places p p')
    {rename : String → String} {args args' : List Expr}
    (each : args.Forall₂ (Expr.Shaped rename) args') :
    EndAlike places (fun names names' => names' = names.map rename) (parameterNames args)
      (parameterNames args') := by
  induction each with
  | nil => exact .ok rfl
  | @cons e e' rest rest' first _ ih =>
      cases first with
      | word name span span' =>
          rw [parameterNames, parameterNames]
          generalize parameterNames rest = left at ih
          generalize parameterNames rest' = right at ih
          cases ih with
          | ok same => exact .ok (congrArg (rename name :: ·) same)
          | error stops => exact .error stops
      | other noWord noWord' placed =>
          rw [parameterNames_of_noWord noWord, parameterNames_of_noWord noWord']
          cases place : e.place? <;> cases place' : e'.place? <;> rw [place, place'] at placed
          · exact .error (.crash _)
          · cases placed
          · cases placed
          · exact .error (.failure rfl (anywhere _ _))

theorem forall₂_append_singleton {α β : Type} {R : α → β → Prop} {as : List α} {a : α} {bs : List β}
    (each : (as ++ [a]).Forall₂ R bs) : ∃ bs' b, bs = bs' ++ [b] ∧ as.Forall₂ R bs' ∧ R a b := by
  induction as generalizing bs with
  | nil =>
      obtain ⟨b, rest, last, none, rfl⟩ := List.forall₂_cons_left_iff.1 each
      obtain rfl := List.forall₂_nil_left_iff.1 none
      exact ⟨[], b, rfl, .nil, last⟩
  | cons first as ih =>
      obtain ⟨b, rest, head, more, rfl⟩ := List.forall₂_cons_left_iff.1 each
      obtain ⟨bs', last, rfl, init, related⟩ := ih more
      exact ⟨b :: bs', last, rfl, .cons head init, related⟩

namespace Correspondence

variable {W : Type} [Preorder W] {r : Correspondence W} {w : W} {dialect dialect' : DialectId}
  {scope scope' : ScopeId}

/-- The arguments of a function, if the parameters are named, or refused, alike and the functions
that are made correspond. -/
theorem arguments_of_function {rename : String → String} {args args' : List Expr}
    {body body' : Expr}
    (names : EndAlike r.places (fun names names' => names' = names.map rename)
      (Form.parameterNames args) (Form.parameterNames args'))
    (makes : ∀ parameters, Form.parameterNames args = .ok parameters →
      Eval.InStep r.toComparison w r.values (Eval.newFunction parameters body scope dialect)
        (Eval.newFunction (parameters.map rename) body' scope' dialect')) :
    r.Arguments w dialect dialect' scope scope' .function (args ++ [body]) (args' ++ [body']) := by
  generalize left : Form.parameterNames args = result at names
  generalize right : Form.parameterNames args' = result' at names
  cases names with
  | ok agree =>
      subst agree
      exact .function left right (makes _ left)
  | error stops =>
      exact .refused stops (fun it => Form.function_of_error left it body scope)
        fun it => Form.function_of_error right it body' scope'

/-- Arguments of one shape, if they correspond one by one. -/
theorem arguments_of_shaped (special : Special) {rename : String → String}
    (shaped : ∀ e e', r.tasks w ⟨dialect, e, scope⟩ ⟨dialect', e', scope'⟩ → e.Shaped rename e')
    (named : ∀ words words',
      words.Forall₂ (fun e e' => r.tasks w ⟨dialect, e, scope⟩ ⟨dialect', e', scope'⟩) words' →
      EndAlike r.places (fun names names' => names' = names.map rename) (Form.parameterNames words)
        (Form.parameterNames words'))
    {args args' : List Expr}
    (each : args.Forall₂ (fun e e' => r.tasks w ⟨dialect, e, scope⟩ ⟨dialect', e', scope'⟩) args')
    (binds : ∀ later name span v v', .word name span ∈ args → w ≤ later → r.values later v v' →
      Eval.InStep r.toComparison later (fun _ _ _ => True) (Eval.bind scope name v)
        (Eval.bind scope' (rename name) v'))
    (makes : special = .function → ∀ words parameters body body', args = words ++ [body] →
      Form.parameterNames words = .ok parameters →
      r.tasks w ⟨dialect, body, scope⟩ ⟨dialect', body', scope'⟩ →
      Eval.InStep r.toComparison w r.values (Eval.newFunction parameters body scope dialect)
        (Eval.newFunction (parameters.map rename) body' scope' dialect')) :
    r.Arguments w dialect dialect' scope scope' special args args' := by
  have known : ∀ cause : Cause, (Stop.ofCause cause).Alike r.places (.ofCause cause) := fun _ =>
    .failure rfl r.unknown
  cases special with
  | conditional =>
      by_cases count : args.length = 3
      · obtain ⟨c, a, b, rfl⟩ := List.length_eq_three.1 count
        obtain _ | ⟨condition, _ | ⟨consequence, _ | ⟨alternative, _ | _⟩⟩⟩ := each
        exact .conditional condition consequence alternative
      · exact .refused (known _) (fun _ => Special.conditional_of_count count)
          fun _ => Special.conditional_of_count (each.length_eq ▸ count)
  | loop =>
      by_cases count : args.length = 2
      · obtain ⟨c, body, rfl⟩ := List.length_eq_two.1 count
        obtain _ | ⟨condition, _ | ⟨inRound, _ | _⟩⟩ := each
        exact .loop condition inRound
      · exact .refused (known _) (fun _ => Special.loop_of_count count)
          fun _ => Special.loop_of_count (each.length_eq ▸ count)
  | sequence => exact .sequence each
  | definition =>
      by_cases shape : ∃ name span e, args = [.word name span, e]
      · obtain ⟨name, span, e, rfl⟩ := shape
        obtain _ | ⟨bound, _ | ⟨value, _ | _⟩⟩ := each
        cases shaped _ _ bound with
        | word _ _ span' =>
            exact .definition value fun later v v' =>
              binds later name span v v' List.mem_cons_self
        | other noWord => cases noWord
      · refine .refused (known _) (fun _ => Special.definition_of_shape ?_)
          fun _ => Special.definition_of_shape ?_
        · exact fun name span e same => shape ⟨name, span, e, same⟩
        · rintro name span e rfl
          obtain _ | ⟨bound, _ | ⟨value, _ | _⟩⟩ := each
          cases shaped _ _ bound with
          | word name' span' _ => exact shape ⟨name', span', _, rfl⟩
          | other _ noWord' => cases noWord'
  | function =>
      cases last : args.getLast? with
      | none =>
          obtain rfl := List.getLast?_eq_none_iff.1 last
          obtain rfl := List.forall₂_nil_left_iff.1 each
          exact .refused (known .missingBody) (fun _ => rfl) fun _ => rfl
      | some body =>
          obtain ⟨parameters, rfl⟩ := List.getLast?_eq_some_iff.1 last
          obtain ⟨parameters', body', rfl, words, task⟩ := forall₂_append_singleton each
          exact arguments_of_function (named _ _ words) fun names parsed =>
            makes rfl _ names body body' rfl parsed task

/-- Arguments with the same bare trees, if they correspond one by one. -/
theorem arguments_of_bare_eq (anywhere : ∀ p p', r.places p p') (special : Special)
    (same : ∀ e e', r.tasks w ⟨dialect, e, scope⟩ ⟨dialect', e', scope'⟩ → e.bare = e'.bare)
    {args args' : List Expr}
    (each : args.Forall₂ (fun e e' => r.tasks w ⟨dialect, e, scope⟩ ⟨dialect', e', scope'⟩) args')
    (binds : ∀ later name v v', w ≤ later → r.values later v v' →
      Eval.InStep r.toComparison later (fun _ _ _ => True) (Eval.bind scope name v)
        (Eval.bind scope' name v'))
    (makes : ∀ parameters body body', r.tasks w ⟨dialect, body, scope⟩ ⟨dialect', body', scope'⟩ →
      Eval.InStep r.toComparison w r.values (Eval.newFunction parameters body scope dialect)
        (Eval.newFunction parameters body' scope' dialect')) :
    r.Arguments w dialect dialect' scope scope' special args args' := by
  have shaped := fun e e' task => Expr.shaped_of_bare_eq (same e e' task)
  refine arguments_of_shaped special shaped
    (fun words words' tasks => Form.parameterNames_shaped anywhere (tasks.imp shaped)) each
    (fun later name _ v v' _ => binds later name v v') fun _ _ parameters body body' _ _ task => ?_
  rw [List.map_id]
  exact makes parameters body body' task

end Correspondence

end EggLanguage
