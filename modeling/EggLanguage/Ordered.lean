/-
# EggLanguage.Ordered -- names in the order of their first binding

A list of names with values, in which every name stands once and keeps the place
of its first binding.  Rebinding a name (`put`) replaces its value where it
stands; a new name goes to the end.  `find?_put` and `names_put` say what a
binding does to reading and to the order; `names_ofList` and `find?_ofList_zip`
say what is left of names that are given several times.
-/
namespace EggLanguage

set_option autoImplicit false

/-- Names with values, in the order of their first binding. -/
abbrev Ordered (α : Type) := List (String × α)

namespace Ordered

variable {α : Type}

/-- Bind a name: in its place if it is bound already, at the end otherwise. -/
def put (name : String) (value : α) : Ordered α → Ordered α
  | [] => [(name, value)]
  | (bound, old) :: rest =>
      if bound = name then (bound, value) :: rest else (bound, old) :: put name value rest

/-- The value a name is bound to. -/
def find? (name : String) : Ordered α → Option α
  | [] => none
  | (bound, value) :: rest => if bound = name then some value else find? name rest

def names (bindings : Ordered α) : List String :=
  bindings.map Prod.fst

/-- Bind the given names one after another. -/
def putAll (pairs : List (String × α)) (bindings : Ordered α) : Ordered α :=
  pairs.foldl (fun bound pair => put pair.1 pair.2 bound) bindings

/-- A repeated name keeps its first place and its last value. -/
def ofList (pairs : List (String × α)) : Ordered α :=
  putAll pairs []

/-! ## What a binding changes -/

theorem find?_put (name other : String) (value : α) (bindings : Ordered α) :
    find? other (put name value bindings) =
      if other = name then some value else find? other bindings := by
  induction bindings with
  | nil =>
      by_cases h : other = name
      · simp [put, find?, h]
      · simp [put, find?, h, Ne.symm h]
  | cons pair rest ih =>
      obtain ⟨bound, old⟩ := pair
      by_cases here : bound = name
      · subst here
        by_cases h : other = bound
        · simp [put, find?, h]
        · simp [put, find?, h, Ne.symm h]
      · by_cases h : other = name
        · subst h
          simp [put, find?, here, ih]
        · by_cases there : bound = other <;> simp [put, find?, here, there, ih, h]

theorem names_put (name : String) (value : α) (bindings : Ordered α) :
    names (put name value bindings) =
      if name ∈ names bindings then names bindings else names bindings ++ [name] := by
  induction bindings with
  | nil => simp [put, names]
  | cons pair rest ih =>
      obtain ⟨bound, old⟩ := pair
      by_cases here : bound = name
      · simp [put, names, here]
      · have ne : name ≠ bound := fun h => here h.symm
        by_cases member : name ∈ names rest
        · simp_all [put, names]
        · simp_all [put, names]

theorem find?_isSome_iff (name : String) (bindings : Ordered α) :
    (find? name bindings).isSome ↔ name ∈ names bindings := by
  induction bindings with
  | nil => simp [find?, names]
  | cons pair rest ih =>
      obtain ⟨bound, value⟩ := pair
      by_cases here : bound = name
      · simp [find?, names, here]
      · have ne : name ≠ bound := fun h => here h.symm
        simp only [names] at ih
        simp [find?, names, here, ne, ih]

theorem forall_put {P : α → Prop} {name : String} {value : α} {bindings : Ordered α}
    (all : ∀ bound ∈ bindings, P bound.2) (new : P value) :
    ∀ bound ∈ put name value bindings, P bound.2 := by
  induction bindings with
  | nil => simpa [put] using new
  | cons pair rest ih =>
      obtain ⟨bound, old⟩ := pair
      rw [List.forall_mem_cons] at all
      rw [put]
      split
      · exact List.forall_mem_cons.2 ⟨new, all.2⟩
      · exact List.forall_mem_cons.2 ⟨all.1, ih all.2⟩

theorem forall_ofList {P : α → Prop} {pairs : List (String × α)} (all : ∀ pair ∈ pairs, P pair.2) :
    ∀ bound ∈ ofList pairs, P bound.2 := by
  have bindAll : ∀ bindings : Ordered α, (∀ bound ∈ bindings, P bound.2) →
      ∀ bound ∈ putAll pairs bindings, P bound.2 := by
    induction pairs with
    | nil => exact fun bindings old => old
    | cons pair rest ih =>
        rw [List.forall_mem_cons] at all
        exact fun bindings old => ih all.2 _ (forall_put old all.1)
  exact bindAll [] (List.forall_mem_nil _)

theorem mem_of_find? {name : String} {value : α} {bindings : Ordered α}
    (found : find? name bindings = some value) : (name, value) ∈ bindings := by
  induction bindings with
  | nil => cases found
  | cons pair rest ih =>
      obtain ⟨bound, old⟩ := pair
      rw [find?] at found
      split at found
      · rename_i same
        cases same
        cases found
        exact List.mem_cons_self
      · exact List.mem_cons_of_mem _ (ih found)

/-! ## Names that are given several times -/

/-- Names that are not bound yet are added in the order in which they come first. -/
theorem names_putAll (pairs : List (String × α)) (bindings : Ordered α) :
    names (putAll pairs bindings) =
      names bindings ++ ((pairs.map Prod.fst).filter (· ∉ names bindings)).eraseDups := by
  induction pairs generalizing bindings with
  | nil => exact (List.append_nil _).symm
  | cons pair rest ih =>
      obtain ⟨name, value⟩ := pair
      show names (putAll rest (put name value bindings)) = _
      rw [ih, names_put, List.map_cons]
      by_cases bound : name ∈ names bindings
      · rw [if_pos bound, List.filter_cons_of_neg (by simpa using bound)]
      · have new : (rest.map Prod.fst).filter (· ∉ names bindings ++ [name]) =
            ((rest.map Prod.fst).filter (· ∉ names bindings)).filter fun other => !other == name := by
          rw [List.filter_filter]
          refine List.filter_congr fun other _ => ?_
          by_cases same : other = name <;> simp [same]
        rw [if_neg bound, new, List.filter_cons_of_pos (by simpa using bound), List.eraseDups_cons,
          List.append_assoc, List.singleton_append]

theorem names_ofList (pairs : List (String × α)) :
    names (ofList pairs) = (pairs.map Prod.fst).eraseDups := by
  rw [ofList, names_putAll, List.filter_eq_self.2 fun _ _ => by simp [names]]
  exact List.nil_append _

theorem find?_putAll_of_not_mem {name : String} {pairs : List (String × α)}
    (other : name ∉ pairs.map Prod.fst) (bindings : Ordered α) :
    find? name (putAll pairs bindings) = find? name bindings := by
  induction pairs generalizing bindings with
  | nil => rfl
  | cons pair rest ih =>
      rw [List.map_cons, List.mem_cons, not_or] at other
      show find? name (putAll rest (put pair.1 pair.2 bindings)) = _
      rw [ih other.2, find?_put, if_neg other.1]

/-- Of the values for one name the last one stays. -/
theorem find?_ofList_zip {names : List String} {values : List α} {i : Nat} {name : String}
    {value : α} (named : names[i]? = some name) (given : values[i]? = some value)
    (last : ∀ j, i < j → names[j]? ≠ some name) :
    find? name (ofList (names.zip values)) = some value := by
  obtain ⟨i_lt, rfl⟩ := List.getElem?_eq_some_iff.1 named
  obtain ⟨i_lt', rfl⟩ := List.getElem?_eq_some_iff.1 given
  have taken : (names.take i).length = (values.take i).length := by
    rw [List.length_take, List.length_take, Nat.min_eq_left (Nat.le_of_lt i_lt),
      Nat.min_eq_left (Nat.le_of_lt i_lt')]
  have split : names.zip values = (names.take i).zip (values.take i) ++
      (names[i], values[i]) :: (names.drop (i + 1)).zip (values.drop (i + 1)) := by
    rw [← List.zip_cons_cons, ← List.drop_eq_getElem_cons, ← List.drop_eq_getElem_cons,
      ← List.zip_append taken, List.take_append_drop, List.take_append_drop]
  -- The pairs after this one are for other names.
  have others : names[i] ∉ ((names.drop (i + 1)).zip (values.drop (i + 1))).map Prod.fst := by
    intro member
    obtain ⟨pair, inRest, same⟩ := List.mem_map.1 member
    obtain ⟨k, found⟩ := List.mem_iff_getElem?.1 (List.of_mem_zip inRest).1
    rw [List.getElem?_drop] at found
    exact last (i + 1 + k) (by omega) (found.trans (congrArg some same))
  rw [split, ofList, putAll, List.foldl_append, List.foldl_cons]
  exact (find?_putAll_of_not_mem others _).trans (by rw [find?_put, if_pos rfl])

end Ordered

end EggLanguage
