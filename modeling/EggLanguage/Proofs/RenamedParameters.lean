/-
# EggLanguage.Proofs.RenamedParameters -- a parameter has no name of its own

Renaming the parameter of a function, wherever its name stands in the expression that makes the
function, is seen from nowhere else (`Workspace.evaluate_renamed`).

Whether a name means the parameter is found out when it is looked up, since scopes grow while
programs run.  The proof therefore follows scopes and not names.  A scope is inside if it was
made for a call of a function that the expression made, or that was made inside; all other
scopes are outside (`Sides`).  Outside, corresponding scopes bind the same names.  Inside they
bind renamed ones, never the new name, and a scope inside whose parent is outside binds the old
one (`Renaming.Stores`).  So on the way outward from a scope inside, the old name is found
before the search leaves, and every other name is spelled alike beyond.
-/
import EggLanguage.Proofs.OneByOne
import EggLanguage.Proofs.Renaming

namespace EggLanguage

set_option autoImplicit false

namespace Ordered

variable {α : Type}

/-- The names of a call are those of the parameters. -/
theorem mem_names_ofList_zip {given : List String} {values : List α}
    (fits : values.length = given.length) {name : String} (member : name ∈ given) :
    name ∈ names (ofList (given.zip values)) := by
  rw [names_ofList, List.map_fst_zip (Nat.le_of_eq fits.symm)]
  exact List.mem_eraseDups.2 member

end Ordered

/-! ## Inside and outside -/

/-- The scopes that there are, in the order in which they were made, and which of them are
inside. -/
structure Sides where
  inside : List Bool

namespace Sides

/-- Scopes are only ever added. -/
instance : Preorder Sides where
  le w later := w.inside <+: later.inside
  le_refl _ := List.prefix_rfl
  le_trans _ _ _ := List.IsPrefix.trans

variable {w later : Sides} {i : ScopeId} {side : Bool}

abbrev Inside (w : Sides) (i : ScopeId) : Prop :=
  w.inside[i]? = some true

abbrev Outside (w : Sides) (i : ScopeId) : Prop :=
  w.inside[i]? = some false

theorem lt_of_side (known : w.inside[i]? = some side) : i < w.inside.length :=
  (List.getElem?_eq_some_iff.1 known).1

theorem later_side (le : w ≤ later) (known : w.inside[i]? = some side) :
    later.inside[i]? = some side := by
  obtain ⟨rest, split⟩ := le
  rw [← split, List.getElem?_append_left (lt_of_side known), known]

/-- One more scope. -/
def add (w : Sides) (side : Bool) : Sides :=
  ⟨w.inside ++ [side]⟩

theorem le_add (w : Sides) (side : Bool) : w ≤ w.add side :=
  List.prefix_append _ _

theorem add_new (w : Sides) (side : Bool) :
    (w.add side).inside[w.inside.length]? = some side := by
  rw [add, List.getElem?_append_right le_rfl, Nat.sub_self, List.getElem?_cons_zero]

theorem add_old {new : Bool} (known : (w.add new).inside[i]? = some side)
    (old : i ≠ w.inside.length) : w.inside[i]? = some side := by
  have exist := lt_of_side known
  rw [add, List.length_append, List.length_singleton] at exist
  rwa [add, List.getElem?_append_left (Nat.lt_of_le_of_ne (Nat.le_of_lt_succ exist) old)] at known

theorem exists_side (exist : i < w.inside.length) : ∃ side, w.inside[i]? = some side :=
  ⟨_, List.getElem?_eq_getElem exist⟩

end Sides

namespace Renaming

variable (r : Renaming)

/-! ## What corresponds -/

/-- The names of corresponding bindings in scopes on one side. -/
def Names : (inside : Bool) → String → String → Prop
  | false, name, name' => name = name'
  | true, name, name' => name ≠ r.new ∧ name' = r.change name

/-- A function made outside has a body that holds the expression where the program does.  One made
by the expression, or inside, is renamed; it was made inside, or it has the parameter. -/
inductive Closures (w : Sides) : Closure → Closure → Prop where
  | outside {identity : Nat} {parameters : List String} {body body' : Expr} {scope : ScopeId}
      {dialect : DialectId} (bodies : Expr.Replaced r.code r.code' body body')
      (outside : w.Outside scope) :
      Closures w ⟨identity, parameters, body, scope, dialect⟩
        ⟨identity, parameters, body', scope, dialect⟩
  | inside {identity : Nat} {parameters : List String} {body body' : Expr} {scope : ScopeId}
      {dialect : DialectId} (made : ∃ g ∈ r.code.nodes, g.Makes parameters body)
      (bodies : (body.rename r.old r.new).bare = body'.bare)
      (binds : w.Inside scope ∨ w.Outside scope ∧ r.old ∈ parameters) :
      Closures w ⟨identity, parameters, body, scope, dialect⟩
        ⟨identity, parameters.map r.change, body', scope, dialect⟩

/-- What is evaluated outside, and inside. -/
inductive Tasks (w : Sides) : Task → Task → Prop where
  | outside {dialect : DialectId} {e e' : Expr} {scope : ScopeId}
      (replaced : Expr.Replaced r.code r.code' e e') (outside : w.Outside scope) :
      Tasks w ⟨dialect, e, scope⟩ ⟨dialect, e', scope⟩
  | inside {dialect : DialectId} {e e' : Expr} {scope : ScopeId} (node : e ∈ r.code.nodes)
      (renamed : (e.rename r.old r.new).bare = e'.bare) (inside : w.Inside scope) :
      Tasks w ⟨dialect, e, scope⟩ ⟨dialect, e', scope⟩

/-- Stores that are the same, but for the names that scopes inside bind. -/
structure Stores (w : Sides) (s s' : Store) : Prop where
  size : s.scopes.size = w.inside.length
  size' : s'.scopes.size = w.inside.length
  functions : s.functions = s'.functions
  parents : ∀ i, s.parent? i = s'.parent? i
  older : ∀ i p, s.parent? i = some p → p < i
  bindings : ∀ i side, w.inside[i]? = some side →
    (s.bindings i).Matched (r.Names side) (Value.Paired (r.Closures w)) (s'.bindings i)
  outward : ∀ i p, w.Outside i → s.parent? i = some p → w.Outside p
  /-- Scopes inside that lie in scopes outside bind the parameter. -/
  binds : ∀ i, w.Inside i → r.old ∈ s.names i ∨ ∃ p, s.parent? i = some p ∧ w.Inside p
  printed : s.printed.toList.Forall₂ (Value.Paired (r.Closures w)) s'.printed.toList

/-- Spans and places do not count. -/
def correspondence : Correspondence Sides where
  stores := r.Stores
  places := Place.anywhere
  unknown := trivial
  closures := r.Closures
  tasks := r.Tasks
  spans _ _ := True

variable {r} {w : Sides} {s s' : Store}

theorem names_unique (side : Bool) (a a' b b' : String) (named : r.Names side a a')
    (named' : r.Names side b b') : a = b ↔ a' = b' := by
  cases side with
  | false =>
      cases named
      cases named'
      rfl
  | true =>
      rw [named.2, named'.2]
      exact renameWord_inj named.1 named'.1

/-- Inside, every name but the parameter is spelled as it is outside. -/
theorem Names.eq_of_ne {side : Bool} {name name' : String} (named : r.Names side name name')
    (other : name ≠ r.old) : name = name' := by
  cases side with
  | false => exact named
  | true => exact named.2 ▸ (renameWord_of_ne other).symm

theorem Closures.later {later : Sides} (le : w ≤ later) {f f' : Closure} (related : r.Closures w f f') :
    r.Closures later f f' := by
  cases related with
  | outside bodies outside => exact .outside bodies (Sides.later_side le outside)
  | inside made bodies binds =>
      refine .inside made bodies ?_
      exact binds.imp (Sides.later_side le) fun both => ⟨Sides.later_side le both.1, both.2⟩

theorem Tasks.later {later : Sides} (le : w ≤ later) {t t' : Task} (task : r.Tasks w t t') :
    r.Tasks later t t' := by
  cases task with
  | outside replaced outside => exact .outside replaced (Sides.later_side le outside)
  | inside node renamed inside => exact .inside node renamed (Sides.later_side le inside)

/-! ## Names -/

/-- Where a search leaves a scope, names correspond beyond as they do within. -/
theorem Stores.leave (stores : r.Stores w s s') {i : ScopeId} {side : Bool}
    (known : w.inside[i]? = some side) {name name' : String} (named : r.Names side name name')
    (free : (s.bindings i).find? name = none) :
    (s.parent? i = none ∧ name = name') ∨
      ∃ p side', s.parent? i = some p ∧ w.inside[p]? = some side' ∧ r.Names side' name name' := by
  have other : r.old ∈ s.names i → name ≠ r.old := by
    rintro bound rfl
    have found := (Ordered.find?_isSome_iff r.old (s.bindings i)).2 bound
    rw [free] at found
    cases found
  cases around : s.parent? i with
  | none =>
      refine .inl ⟨rfl, ?_⟩
      cases side with
      | false => exact named
      | true =>
          obtain bound | ⟨p, parent, -⟩ := stores.binds i known
          · exact named.eq_of_ne (other bound)
          · rw [around] at parent
            cases parent
  | some p =>
      have exist := Sides.lt_of_side known
      obtain ⟨side', known'⟩ := Sides.exists_side (Nat.lt_trans (stores.older i p around) exist)
      refine .inr ⟨p, side', rfl, known', ?_⟩
      cases side with
      | false =>
          rw [stores.outward i p known around] at known'
          cases known'
          exact named
      | true =>
          cases side' with
          | true => exact named
          | false =>
              obtain bound | ⟨p', parent, inside⟩ := stores.binds i known
              · exact named.eq_of_ne (other bound)
              · rw [around] at parent
                cases parent
                cases known'.symm.trans inside

/-- The search outward from a scope finds values that correspond, or one name is bound in neither
store.  The induction is on the length of the chain. -/
theorem Stores.findSome? (stores : r.Stores w s s') (length : Nat) {i : ScopeId}
    (fits : i < length) {side : Bool} (known : w.inside[i]? = some side) {name name' : String}
    (named : r.Names side name name') :
    Option.Rel (Value.Paired (r.Closures w))
        ((s.chainWithin length i).findSome? fun j => (s.bindings j).find? name)
        ((s'.chainWithin length i).findSome? fun j => (s'.bindings j).find? name') ∧
      (((s.chainWithin length i).findSome? fun j => (s.bindings j).find? name) = none →
        name = name') := by
  induction length generalizing i side with
  | zero => exact absurd fits (Nat.not_lt_zero i)
  | succ length ih =>
      have here := (stores.bindings i side known).find? (names_unique side) named
      rw [Store.chainWithin, Store.chainWithin, ← stores.parents i, List.findSome?_cons,
        List.findSome?_cons]
      cases found : (s.bindings i).find? name with
      | some v =>
          rw [found] at here
          generalize (s'.bindings i).find? name' = right at here
          cases here with
          | some related => exact ⟨.some related, fun none => absurd none (Option.some_ne_none v)⟩
      | none =>
          rw [found] at here
          generalize (s'.bindings i).find? name' = right at here
          cases here
          obtain ⟨around, same⟩ | ⟨p, side', around, known', named'⟩ := stores.leave known named found
          · rw [around]
            exact ⟨.none, fun _ => same⟩
          · rw [around]
            have older := stores.older i p around
            exact ih (Nat.lt_of_lt_of_le older (Nat.le_of_lt_succ fits)) known' named'

theorem Stores.lookup? (stores : r.Stores w s s') {i : ScopeId} {side : Bool}
    (known : w.inside[i]? = some side) {name name' : String} (named : r.Names side name name') :
    Option.Rel (Value.Paired (r.Closures w)) (s.lookup? i name) (s'.lookup? i name') ∧
      (s.lookup? i name = none → name = name') :=
  stores.findSome? (i + 1) (Nat.lt_succ_self i) known named

/-! ## Changes -/

theorem Stores.bind (stores : r.Stores w s s') {i : ScopeId} {side : Bool}
    (known : w.inside[i]? = some side) {name name' : String} (named : r.Names side name name')
    {v v' : Value} (values : v.Paired (r.Closures w) v') :
    r.Stores w (s.bind i name v) (s'.bind i name' v') where
  size := by rw [Store.size_bind, stores.size]
  size' := by rw [Store.size_bind, stores.size']
  functions := stores.functions
  parents j := by rw [Store.parent?_bind, Store.parent?_bind, stores.parents j]
  older j p := by
    rw [Store.parent?_bind]
    exact stores.older j p
  bindings j side' known' := by
    have matched := stores.bindings j side' known'
    rw [Store.bindings_bind, Store.bindings_bind, stores.size, stores.size']
    split
    · rename_i here
      rw [here.1, known] at known'
      cases known'
      exact matched.put (names_unique side) named values
    · exact matched
  outward j p := by
    rw [Store.parent?_bind]
    exact stores.outward j p
  binds j inside := by
    have exist : j < s.scopes.size := stores.size ▸ Sides.lt_of_side inside
    have kept : s.names j <+: (s.bind i name v).names j :=
      ((Store.Grown.refl (fun _ => True) s).bind (fun _ => trivial) name v).names j exist
    rw [Store.parent?_bind]
    exact (stores.binds j inside).imp_left fun bound => kept.subset bound
  printed := stores.printed

/-- A new scope on either side.  One inside binds the parameter, unless it lies in one inside. -/
theorem Stores.newScope (stores : r.Stores w s s') (side : Bool) {given given' : Ordered Value}
    (matched : given.Matched (r.Names side) (Value.Paired (r.Closures w)) given')
    {parent : Option ScopeId} (exist : ∀ p, parent = some p → p < w.inside.length)
    (outward : side = false → ∀ p, parent = some p → w.Outside p)
    (binds : side = true → r.old ∈ Ordered.names given ∨ ∃ p, parent = some p ∧ w.Inside p) :
    r.Stores (w.add side) (s.newScope given parent).2 (s'.newScope given' parent).2 := by
  have le := w.le_add side
  have values : ∀ v v' : Value, v.Paired (r.Closures w) v' →
      v.Paired (r.Closures (w.add side)) v' := fun v v' pair => pair.imp fun f f' => Closures.later le
  have length : (w.add side).inside.length = w.inside.length + 1 := by
    rw [Sides.add, List.length_append, List.length_singleton]
  have new : ∀ {side'}, (w.add side).inside[w.inside.length]? = some side' → side = side' :=
    fun known => Option.some.inj ((w.add_new side).symm.trans known)
  have lifts : ∀ around : Option ScopeId, (∃ p, around = some p ∧ w.Inside p) →
      ∃ p, around = some p ∧ (w.add side).Inside p := by
    rintro around ⟨p, same, within⟩
    exact ⟨p, same, Sides.later_side le within⟩
  refine ⟨?_, ?_, stores.functions, fun i => ?_, fun i p => ?_, fun i side' known => ?_,
    fun i p outside => ?_, fun i inside => ?_, stores.printed.imp fun _ _ => values _ _⟩
  · rw [Store.size_newScope, stores.size, length]
  · rw [Store.size_newScope, stores.size', length]
  · rw [Store.parent?_newScope, Store.parent?_newScope, stores.size, stores.size', stores.parents i]
  · rw [Store.parent?_newScope, stores.size]
    split
    · rename_i here
      exact here ▸ exist p
    · exact stores.older i p
  · rw [Store.bindings_newScope, Store.bindings_newScope, stores.size, stores.size']
    split
    · rename_i here
      obtain rfl := new (here ▸ known)
      exact matched.imp values
    · rename_i old
      exact (stores.bindings i side' (Sides.add_old known old)).imp values
  · rw [Store.parent?_newScope, stores.size]
    split
    · rename_i here
      exact fun around => Sides.later_side le (outward (new (here ▸ outside)) p around)
    · rename_i old
      exact fun around => Sides.later_side le (stores.outward i p (Sides.add_old outside old) around)
  · rw [Store.parent?_newScope, Store.names, Store.bindings_newScope, stores.size]
    split
    · rename_i here
      exact (binds (new (here ▸ inside))).imp_right (lifts parent)
    · rename_i old
      exact (stores.binds i (Sides.add_old inside old)).imp_right (lifts (s.parent? i))

/-- A new scope outside, in which both stores bind the same names. -/
theorem Stores.newOutside (stores : r.Stores w s s') {given given' : Ordered Value}
    (matched : given.Matched (r.Names false) (Value.Paired (r.Closures w)) given')
    {around : ScopeId} (outside : w.Outside around) :
    r.Stores (w.add false) (s.newScope given (some around)).2
      (s'.newScope given' (some around)).2 := by
  have parent : ∀ p, some around = some p → w.Outside p := by
    rintro p ⟨⟩
    exact outside
  exact stores.newScope false matched (fun p same => Sides.lt_of_side (parent p same))
    (fun _ => parent) nofun

theorem Stores.print (stores : r.Stores w s s') {v v' : Value}
    (values : v.Paired (r.Closures w) v') : r.Stores w (s.print v) (s'.print v') :=
  { stores with
    printed := by
      rw [Store.print, Store.print, Array.toList_push, Array.toList_push]
      exact List.rel_append stores.printed (.cons values .nil) }

theorem Stores.newFunction (stores : r.Stores w s s') {parameters parameters' : List String}
    {body body' : Expr} {scope : ScopeId} {dialect : DialectId}
    (related : r.Closures w ⟨s.functions, parameters, body, scope, dialect⟩
      ⟨s.functions, parameters', body', scope, dialect⟩) :
    r.Stores w (s.newFunction parameters body scope dialect).2
        (s'.newFunction parameters' body' scope dialect).2 ∧
      (s.newFunction parameters body scope dialect).1.Paired (r.Closures w)
        (s'.newFunction parameters' body' scope dialect).1 := by
  refine ⟨{ stores with functions := congrArg (· + 1) stores.functions }, .closure ?_⟩
  exact stores.functions ▸ related

/-! ## Evaluation -/

theorem Tasks.replaced {dialect dialect' : DialectId} {e e' : Expr} {scope scope' : ScopeId}
    (task : r.Tasks w ⟨dialect, e, scope⟩ ⟨dialect', e', scope'⟩) (outside : w.Outside scope) :
    Expr.Replaced r.code r.code' e e' := by
  cases task with
  | outside replaced _ => exact replaced
  | inside _ _ inside => cases outside.symm.trans inside

theorem Tasks.renamed {dialect dialect' : DialectId} {e e' : Expr} {scope scope' : ScopeId}
    (task : r.Tasks w ⟨dialect, e, scope⟩ ⟨dialect', e', scope'⟩) (inside : w.Inside scope) :
    (e.rename r.old r.new).bare = e'.bare := by
  cases task with
  | outside _ outside => cases outside.symm.trans inside
  | inside _ renamed _ => exact renamed

theorem shaped_code (r : Renaming) : r.code.Shaped id r.code' :=
  .other rfl rfl rfl

theorem forms (r : Renaming) (name : String) :
    Dialect.standard.find? (r.change name) = Dialect.standard.find? name :=
  Dialect.find?_renameWord r.ordinary r.ordinary' name

theorem unused_word (r : Renaming) {name : String} {at' : Span}
    (node : .word name at' ∈ r.code.nodes) : name ≠ r.new := by
  rintro rfl
  exact r.unused at' node

variable {limits : Limits} {dialect : DialectId} {e e' : Expr} {scope : ScopeId}

/-- Evaluated outside, the expression makes functions that bind the parameter. -/
theorem unfold_code (equal : r.code'.bare = e'.bare) (outside : w.Outside scope) :
    r.correspondence.Unfolds w (.standard limits) (.standard limits) ⟨dialect, r.code, scope⟩
      ⟨dialect, e', scope⟩ := by
  rw [code', code, Expr.making, Expr.rename, Expr.rename, Expr.renameArgs_eq_map] at equal
  cases Expr.alike_of_bare_eq equal with
  | @apply _ operator' _ args' _ span' applied each =>
      have named : Dialect.standard.form? operator' = some Form.function := by
        rw [← Dialect.form?_eq_of_bare_eq applied]
        exact r.forms "fun"
      obtain ⟨words', body', rfl, words, bodies⟩ :=
        forall₂_append_singleton (List.forall₂_map_left_iff.1 each)
      refine .special .function trivial rfl named ?_
      refine Correspondence.arguments_of_function (Form.parameterNames_shaped (fun _ _ => trivial)
        (words.imp fun a a' same => (Expr.shaped_rename r.old r.new a).of_bare_eq same))
        fun parameters parsed => .step fun s s' stores => ⟨w, le_rfl, stores.newFunction ?_⟩
      refine .inside ⟨r.code, Expr.mem_nodes_self _, r.args, r.span, r.span', rfl, parsed⟩ bodies ?_
      exact .inr ⟨outside, (Form.mem_parameterNames_iff parsed r.old).2 r.parameter⟩

theorem unfold_outside (replaced : Expr.Replaced r.code r.code' e e') (outside : w.Outside scope) :
    r.correspondence.Unfolds w (.standard limits) (.standard limits) ⟨dialect, e, scope⟩
      ⟨dialect, e', scope⟩ := by
  cases replaced with
  | here found equal => exact found ▸ unfold_code equal outside
  | literal c span span' => exact .literal c
  | word name span span' =>
      refine .word trivial (.lookup fun s s' stores => stores.lookup? outside ?_)
      exact rfl
  | @apply operator operator' args args' span span' other applied each =>
      have tasks : args.Forall₂
          (fun a a' => r.Tasks w ⟨dialect, a, scope⟩ ⟨dialect, a', scope⟩) args' :=
        each.imp fun _ _ replaced => .outside replaced outside
      refine r.correspondence.unfolds_apply rfl rfl trivial
        ((applied.shaped r.shaped_code).form?_eq fun _ => rfl) (.outside applied outside) tasks
        fun special _ _ => ?_
      have shaped := fun a a' (task : r.Tasks w ⟨dialect, a, scope⟩ ⟨dialect, a', scope⟩) =>
        (Tasks.replaced task outside).shaped r.shaped_code
      refine Correspondence.arguments_of_shaped special shaped
        (fun _ _ each => Form.parameterNames_shaped (fun _ _ => trivial) (each.imp shaped)) tasks
        (fun later name at' v v' _ le values => ?_) fun _ words parameters body body' _ _ task => ?_
      · exact .step fun s s' stores =>
          ⟨later, le_rfl, stores.bind (Sides.later_side le outside) rfl values, trivial⟩
      · rw [List.map_id]
        exact .step fun s s' stores =>
          ⟨w, le_rfl, stores.newFunction (.outside (Tasks.replaced task outside) outside)⟩

theorem unfold_inside (formed : r.code.WellFormed) (node : e ∈ r.code.nodes)
    (renamed : (e.rename r.old r.new).bare = e'.bare) (inside : w.Inside scope) :
    r.correspondence.Unfolds w (.standard limits) (.standard limits) ⟨dialect, e, scope⟩
      ⟨dialect, e', scope⟩ := by
  cases e with
  | literal c span =>
      cases Expr.alike_of_bare_eq renamed with
      | literal => exact .literal c
  | word name span =>
      rw [Expr.rename] at renamed
      cases Expr.alike_of_bare_eq renamed with
      | word =>
          refine .word trivial (.lookup fun s s' stores => stores.lookup? inside ?_)
          exact ⟨r.unused_word node, rfl⟩
  | function => exact (formed.node node).elim
  | abstract => exact (formed.node node).elim
  | apply operator args span =>
      rw [Expr.rename, Expr.renameArgs_eq_map] at renamed
      cases Expr.alike_of_bare_eq renamed with
      | @apply _ operator' _ args' _ span' applied each =>
          have argument : ∀ a ∈ args, a ∈ r.code.nodes := fun a member =>
            Expr.mem_nodes_trans (Expr.mem_nodes_argument operator member span) node
          have tasks : args.Forall₂
              (fun a a' => r.Tasks w ⟨dialect, a, scope⟩ ⟨dialect, a', scope⟩) args' := by
            refine (List.forall₂_and_left _ _).2 ⟨argument, List.forall₂_map_left_iff.1 each⟩ |>.imp ?_
            exact fun a a' both => .inside both.1 both.2 inside
          have shaped : ∀ a a' : Expr, (a.rename r.old r.new).bare = a'.bare → a.Shaped r.change a' :=
            fun a a' same => (Expr.shaped_rename r.old r.new a).of_bare_eq same
          have inner := Expr.mem_nodes_trans (Expr.mem_nodes_operator operator args span) node
          refine r.correspondence.unfolds_apply rfl rfl trivial
            ((shaped operator operator' applied).form?_eq r.forms) (.inside inner applied inside) tasks
            fun special at' word => ?_
          have shapedTask := fun a a' (task : r.Tasks w ⟨dialect, a, scope⟩ ⟨dialect, a', scope⟩) =>
            shaped a a' (Tasks.renamed task inside)
          refine Correspondence.arguments_of_shaped special shapedTask
            (fun _ _ each => Form.parameterNames_shaped (fun _ _ => trivial) (each.imp shapedTask))
            tasks
            (fun later name at' v v' member le values => ?_)
            fun same words parameters body body' split parsed task => ?_
          · have bound : r.Names true name (r.change name) := ⟨r.unused_word (argument _ member), rfl⟩
            exact .step fun s s' stores =>
              ⟨later, le_rfl, stores.bind (Sides.later_side le inside) bound values, trivial⟩
          · subst same split word
            refine .step fun s s' stores => ⟨w, le_rfl, stores.newFunction ?_⟩
            exact .inside ⟨_, node, words, at', span, rfl, parsed⟩ (Tasks.renamed task inside)
              (.inl inside)

/-- A call of a function that was made inside, or by the expression, is inside. -/
theorem enter {f f' : Closure} {values values' : List Value} (related : r.Closures w f f')
    (fits : values.length = f.parameters.length)
    (pairs : values.Forall₂ (Value.Paired (r.Closures w)) values') :
    Eval.InStep r.correspondence.toComparison w
      (fun later scope scope' =>
        r.Tasks later ⟨f.dialect, f.body, scope⟩ ⟨f'.dialect, f'.body, scope'⟩)
      (Eval.newScope (Ordered.ofList (f.parameters.zip values)) (some f.scope))
      (Eval.newScope (Ordered.ofList (f'.parameters.zip values')) (some f'.scope)) := by
  cases related with
  | @outside identity parameters body body' home dialect bodies outside =>
      refine .step fun s s' stores => ⟨w.add false, w.le_add false, ?_, ?_⟩
      · have names : parameters.Forall₂ (r.Names false) parameters :=
          List.forall₂_same.2 fun _ _ => rfl
        exact stores.newOutside (.ofList_zip (names_unique false) names pairs) outside
      · rw [Store.newScope_fst, Store.newScope_fst, stores.size, stores.size']
        exact .outside bodies (w.add_new false)
  | @inside identity parameters body body' home dialect made bodies binds =>
      obtain ⟨g, node, makes⟩ := made
      refine .step fun s s' stores => ⟨w.add true, w.le_add true, ?_, ?_⟩
      · have names : parameters.Forall₂ (r.Names true) (parameters.map r.change) := by
          refine List.forall₂_map_right_iff.2 (List.forall₂_same.2 fun name member => ⟨?_, rfl⟩)
          obtain ⟨at', stands⟩ := makes.parameter_mem member
          exact r.unused_word (Expr.mem_nodes_trans stands node)
        refine stores.newScope true (.ofList_zip (names_unique true) names pairs) ?_ nofun fun _ => ?_
        · rintro p ⟨⟩
          obtain inside | ⟨outside, -⟩ := binds
          · exact Sides.lt_of_side inside
          · exact Sides.lt_of_side outside
        · obtain inside | ⟨-, parameter⟩ := binds
          · exact .inr ⟨home, rfl, inside⟩
          · exact .inl (Ordered.mem_names_ofList_zip fits parameter)
      · rw [Store.newScope_fst, Store.newScope_fst, stores.size, stores.size']
        exact .inside (Expr.mem_nodes_trans makes.body_mem node) bodies (w.add_new true)

/-- Evaluation under the standard forms keeps to a renaming. -/
theorem simulates (r : Renaming) (formed : r.code.WellFormed) (limits : Limits) :
    r.correspondence.Simulates (Setting.standard limits) (Setting.standard limits) where
  limits := rfl
  closures_later le related := Closures.later le related
  tasks_later le task := Tasks.later le task
  settle _ _ := trivial
  bringTo _ _ := trivial
  identity left right := by
    cases left <;> cases right <;> exact Iff.rfl
  arity related := by
    cases related with
    | outside => rfl
    | inside => exact (List.length_map r.change).symm
  print values := .step fun _ _ stores => ⟨_, le_rfl, stores.print values, trivial⟩
  enter related fits pairs := enter related fits pairs
  unfold task := by
    cases task with
    | outside replaced outside => exact unfold_outside replaced outside
    | inside node renamed inside => exact unfold_inside formed node renamed inside

/-! ## Programs -/

/-- The global and the lasting scope, which a workspace has from the start, are outside. -/
def start : Sides :=
  ⟨[false, false]⟩

theorem stores_new (r : Renaming) (setting : Setting) (dialect : DialectId) (reporter : Reporter)
    (verbose : Bool) :
    r.Stores start (Workspace.new setting dialect reporter verbose).store
      (Workspace.new setting dialect reporter verbose).store := by
  have empty : r.Stores ⟨[]⟩ .empty .empty :=
    ⟨rfl, rfl, rfl, fun _ => rfl, nofun, nofun, nofun, nofun, .nil⟩
  have bindings : Store.globalBindings.Matched (r.Names false) (Value.Paired (r.Closures ⟨[]⟩))
      Store.globalBindings := by
    refine List.forall₂_same.2 fun bound member => ⟨rfl, ?_⟩
    obtain ⟨c, same⟩ := Store.globalBindings_constant bound member
    rw [same]
    exact .constant c
  have globalScope : r.Stores ⟨[false]⟩ (Store.empty.newScope Store.globalBindings none).2
      (Store.empty.newScope Store.globalBindings none).2 :=
    empty.newScope false bindings nofun nofun nofun
  exact globalScope.newOutside .nil rfl

theorem Stores.newSource (stores : r.Stores w s s') (text text' : String) :
    r.Stores w (s.newSource text).2 (s'.newSource text').2 :=
  ⟨stores.size, stores.size', stores.functions, stores.parents, stores.older, stores.bindings,
    stores.outward, stores.binds, stores.printed⟩

theorem sameSize_code (r : Renaming) : r.code.SameSize r.code' :=
  Expr.sameSize_rename r.old r.new r.code

/-- A text that is read as the program with the parameter renamed in the function. -/
def Renames (r : Renaming) (nesting : Nat) (e : Expr) (text : String) : Prop :=
  ∃ e', Expr.parse nesting ⟨0, text⟩ = .ok e' ∧ Expr.Replaced r.code r.code' e e'

theorem exists_renames (r : Renaming) {nesting : Nat} {source : Source} {e : Expr}
    (parsed : Expr.parse nesting source = .ok e) (within : r.code ∈ e.nodes) :
    ∃ text, r.Renames nesting e text := by
  have formed := Expr.wellFormed_of_parse parsed
  have formed' : r.code'.WellFormed := (formed.node within).rename r.old r.lexical
  obtain ⟨e', replaced, formedWhole⟩ := Expr.exists_replaced formed' formed
  have fits : e'.nesting < nesting :=
    (replaced.sameSize r.sameSize_code).1 ▸ (Grammar.parse_ok_iff.1 parsed).2
  have written : (⟨0, String.ofList e'.spelling⟩ : Source).text.toList = e'.spelling :=
    String.toList_ofList
  obtain ⟨e'', parsed', same⟩ := formedWhole.parse_spelling fits written
  have bare := (Expr.wellFormed_of_parse parsed').bare_eq_of_same same
  exact ⟨_, e'', parsed', replaced.of_bare_eq bare.symm⟩

section

variable {host : Workspace} (outside : w.Outside host.globalScope)
  (outside' : w.Outside host.lastingScope)

include outside outside'

theorem scopeOf_inStep (choice : Workspace.ScopeChoice) :
    Eval.InStep r.correspondence.toComparison w
      (fun later scope scope' => scope = scope' ∧ later.Outside scope) (host.scopeOf choice)
      (host.scopeOf choice) := by
  cases choice with
  | lasting => exact .pure ⟨rfl, outside'⟩
  | fresh =>
      refine .step fun s s' stores => ⟨w.add false, w.le_add false, ?_, ?_⟩
      · exact stores.newOutside .nil outside
      · rw [Store.newScope_fst, Store.newScope_fst, stores.size, stores.size']
        exact ⟨rfl, w.add_new false⟩

/-- Programs that differ in the name of a parameter run in step. -/
theorem programOf_inStep (standard : host.setting = .standard limits) {n n' : Nat}
    {source source' : Source} (parsed : Expr.parse n source = .ok e)
    (parsed' : Expr.parse n' source' = .ok e') (within : r.code ∈ e.nodes)
    (replaced : Expr.Replaced r.code r.code' e e') (choice : Workspace.ScopeChoice) :
    Eval.InStep r.correspondence.toComparison w r.correspondence.values
      (host.programOf source choice) (host.programOf source' choice) := by
  have formed := Expr.wellFormed_of_parse parsed
  have size := replaced.sameSize r.sameSize_code
  rw [host.programOf_eq (Grammar.program_of_parse parsed),
    host.programOf_eq (Grammar.program_of_parse parsed'), size.1,
    host.logging_eq formed, host.logging_eq (Expr.wellFormed_of_parse parsed'), size.2]
  split
  · refine (scopeOf_inStep outside outside' choice).bind fun inner scope scope' _ known => ?_
    obtain ⟨rfl, outside⟩ := known
    split
    · rw [standard]
      exact (r.simulates (formed.node within) limits).evaluate limits.depth (.outside replaced outside)
    · exact .crash _
  · exact .crash _

end

end Renaming

/-! ## Outcomes -/

/-- Functions that are one but for their bodies, which are one as `elsewhere` says; or that are
one but for the renamed parameter, made by evaluating the expression or by a function expression
within it. -/
inductive Closure.Renamed (r : Renaming) (elsewhere : Expr → Expr → Prop) :
    Closure → Closure → Prop where
  | elsewhere {identity : Nat} {parameters : List String} {body body' : Expr} {scope : ScopeId}
      {dialect : DialectId} (bodies : elsewhere body body') :
      Renamed r elsewhere ⟨identity, parameters, body, scope, dialect⟩
        ⟨identity, parameters, body', scope, dialect⟩
  | made {identity : Nat} {parameters : List String} {body body' : Expr} {scope : ScopeId}
      {dialect : DialectId} (made : ∃ g ∈ r.code.nodes, g.Makes parameters body)
      (bodies : (body.rename r.old r.new).bare = body'.bare) :
      Renamed r elsewhere ⟨identity, parameters, body, scope, dialect⟩
        ⟨identity, parameters.map r.change, body', scope, dialect⟩

namespace Renaming

theorem Closures.renamed {r : Renaming} {w : Sides} {f f' : Closure} (related : r.Closures w f f') :
    f.Renamed r (Expr.Replaced r.code r.code') f' := by
  cases related with
  | outside bodies _ => exact .elsewhere bodies
  | inside made bodies _ => exact .made made bodies

/-- One outcome but for the renamed parameter: the same values were printed, and both ended with
one value, with failures of one cause or with one crash. -/
structure OutcomeRenamed (r : Renaming) (elsewhere : Expr → Expr → Prop)
    (left right : Except Stop Value × Store) : Prop where
  ends : EndAlike Place.anywhere (Value.Paired (Closure.Renamed r elsewhere)) left.1 right.1
  printed : left.2.printed.toList.Forall₂ (Value.Paired (Closure.Renamed r elsewhere))
    right.2.printed.toList

end Renaming

namespace Workspace

/-- **A parameter may be renamed.**  Take any program under the standard forms, any expression in
it that makes a function, any parameter of that function and any word that does not stand in the
expression, neither of which names a form.  With the parameter renamed wherever its name stands
in the expression the program can be written, and however that is done it does the same as
before: the same values are printed, and it ends with the same value, with a failure of the same
cause or with the same crash.  Functions made by the expression, or within it, have the parameter
renamed in their parameters and bodies; functions made elsewhere differ in that their bodies hold
the renamed expression if they held the expression. -/
theorem evaluate_renamed (limits : Limits) (dialect : DialectId) (reporter : Reporter)
    (verbose : Bool) (choice : ScopeChoice) (path path' : Option String) (r : Renaming)
    {nesting : Nat} {text : String} {e : Expr} (parsed : Expr.parse nesting ⟨0, text⟩ = .ok e)
    (within : r.code ∈ e.nodes) :
    let w := new (.standard limits) dialect reporter verbose
    (∃ text', r.Renames nesting e text') ∧ ∀ text', r.Renames nesting e text' →
      r.OutcomeRenamed (Expr.Replaced r.code r.code') (w.ending (evaluate [text] choice path))
        (w.ending (evaluate [text'] choice path')) := by
  intro w
  refine ⟨r.exists_renames parsed within, fun text' ⟨e', parsed', replaced⟩ => ?_⟩
  have ends : ∀ text path, w.ending (evaluate [text] choice path) =
      (w.programOf ⟨0, text⟩ choice).outcome (w.store.newSource text).2 := fun text path =>
    (Prod.ext (evaluate_follows w [text] choice path).result
      (evaluate_follows w [text] choice path).store).trans (program_outcome w text choice w.store)
  rw [ends, ends]
  have stores := (r.stores_new (.standard limits) dialect reporter verbose).newSource text text'
  have inStep := @Renaming.programOf_inStep r Renaming.start limits e e' w rfl rfl rfl _ _ _ _
    parsed parsed' within replaced choice
  obtain ⟨last, -, stores', ended⟩ := inStep _ _ stores
  have paired : ∀ v v' : Value, v.Paired (r.Closures last) v' →
      v.Paired (Closure.Renamed r (Expr.Replaced r.code r.code')) v' :=
    fun v v' pair => pair.imp fun _ _ => Renaming.Closures.renamed
  exact ⟨ended.imp (fun _ _ placed => placed) paired, stores'.printed.imp fun _ _ => paired _ _⟩

end Workspace

/-! ### A function within a function -/

namespace Renaming

/-- A stretch of the first text that a workspace is given. -/
def inText (text : String) (start stop : Nat) : Span :=
  ⟨start, stop, some ⟨0, text⟩⟩

/-- The parameter of the inner function of `fun(z, fun(x, x))`, and `y` as its new name. -/
def nested : Renaming where
  args := [.word "x" (inText "fun(z, fun(x, x))" 11 12)]
  body := .word "x" (inText "fun(z, fun(x, x))" 14 15)
  span := inText "fun(z, fun(x, x))" 7 10
  span' := inText "fun(z, fun(x, x))" 7 16
  old := "x"
  new := "y"
  parameter := ⟨_, List.mem_singleton_self _⟩
  ordinary := rfl
  ordinary' := rfl
  lexical := lexical_of_first rfl rfl
  unused at' node := by simp [Expr.making, Expr.nodes, Expr.nodesOfArgs] at node

/-- The inner function of such a program, and the whole program, as they are read. -/
def nestedCode (name text : String) : Expr :=
  .making [.word name (inText text 11 12)] (.word name (inText text 14 15)) (inText text 7 10)
    (inText text 7 16)

def nestedProgram (name text : String) : Expr :=
  .making [.word "z" (inText text 4 5)] (nestedCode name text) (inText text 0 3) (inText text 0 17)

theorem parse_nested :
    Expr.parse 4 ⟨0, "fun(z, fun(x, x))"⟩ = .ok (nestedProgram "x" "fun(z, fun(x, x))") ∧
      Expr.parse 4 ⟨0, "fun(z, fun(y, y))"⟩ = .ok (nestedProgram "y" "fun(z, fun(y, y))") := by
  constructor <;> with_unfolding_all rfl

theorem code_mem_nested : nested.code ∈ (nestedProgram "x" "fun(z, fun(x, x))").nodes :=
  Expr.mem_nodes_argument _ (List.mem_append_right _ (List.mem_singleton_self _)) _

theorem nested_renames :
    nested.Renames 4 (nestedProgram "x" "fun(z, fun(x, x))") "fun(z, fun(y, y))" := by
  refine ⟨_, parse_nested.2, .apply (fun whole => ?_) (.word "fun" _ _) ?_⟩
  · cases whole
  · exact .cons (.word "z" _ _) (.cons (.here rfl rfl) .nil)

end Renaming

namespace Workspace

open Renaming in
/-- The function around the expression holds it in its body. -/
theorem evaluate_renamed_around :
    let w := new (.standard .standard) 0 ⟨true, .plain, none⟩ false
    nested.OutcomeRenamed (Expr.Replaced nested.code nested.code')
      (w.ending (evaluate ["fun(z, fun(x, x))"] .fresh none))
      (w.ending (evaluate ["fun(z, fun(y, y))"] .fresh none)) :=
  (evaluate_renamed .standard 0 ⟨true, .plain, none⟩ false .fresh none none nested
    parse_nested.1 code_mem_nested).2 _ nested_renames

open Renaming in
/-- Functions made elsewhere do not all keep their bodies: the function around the expression holds
the renamed one. -/
theorem evaluate_renamed_elsewhere :
    let w := new (.standard .standard) 0 ⟨true, .plain, none⟩ false
    ∃ (r : Renaming) (nesting : Nat) (text text' : String) (e : Expr),
      Expr.parse nesting ⟨0, text⟩ = .ok e ∧ r.code ∈ e.nodes ∧ r.Renames nesting e text' ∧
        ¬ r.OutcomeRenamed (fun body body' => body.bare = body'.bare)
          (w.ending (evaluate [text] .fresh none)) (w.ending (evaluate [text'] .fresh none)) := by
  refine ⟨nested, 4, _, _, _, parse_nested.1, code_mem_nested, nested_renames, ?_⟩
  rintro ⟨ends, -⟩
  have values : ((new (.standard .standard) 0 ⟨true, .plain, none⟩ false).ending
        (evaluate ["fun(z, fun(x, x))"] .fresh none)).1 =
          .ok (.closure ⟨0, ["z"], nested.code, 2, 0⟩) ∧
      ((new (.standard .standard) 0 ⟨true, .plain, none⟩ false).ending
        (evaluate ["fun(z, fun(y, y))"] .fresh none)).1 =
          .ok (.closure ⟨0, ["z"], nestedCode "y" "fun(z, fun(y, y))", 2, 0⟩) := by
    constructor <;> with_unfolding_all rfl
  rw [values.1, values.2] at ends
  cases ends with
  | ok related =>
      cases related with
      | closure related =>
          cases related with
          | elsewhere bodies => simp [nested, code, nestedCode, Expr.making] at bodies
          | made made =>
              obtain ⟨g, node, makes⟩ := made
              obtain ⟨at', stands⟩ := makes.parameter_mem (List.mem_singleton_self "z")
              have foreign := Expr.mem_nodes_trans stands node
              simp [nested, code, Expr.making, Expr.nodes, Expr.nodesOfArgs] at foreign

end Workspace

end EggLanguage
