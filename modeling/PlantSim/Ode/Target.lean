import Mathlib

/-!
# The State Vector Protocol

`OdeTarget α β` is the contract every simulatable unit of the model offers the ODE solver
(`ode::OdeTarget`): a size, and three cursor operations over a flat buffer of slots. The unit's
own state is `α`; a slot is a `β` (`double` in the source, whose value nothing here inspects).

* An input cursor is the rest of the buffer from the cursor on; `ode_values_set` returns the new
  state and the cursor it hands back, i.e. what it left unread.
* An output cursor is written by `*it++ = v`; `ode_values` and `ode_rates` are the values written,
  in order, and the cursor handed back is the one past the last of them.

`OdeTarget.GetSet` states the laws one evaluation needs, and `OdeTarget.Lawful` adds that setting
the values a unit answers leaves it as it was. `OdeTarget.list` is the composite that traverses
its children in order, threading one cursor through them; this is how `Metacommunity` composes
its patches (and, by the spec, how a patch composes its species and cohorts).

The main results:

* `GetSet.list`, `Lawful.list`: each set of laws composes, so the protocol holds to any depth;
* `values_set_list_getElem`: child `p` of a composite is set from exactly its own slice
  `[offset p, offset p + size p)` of the input;
* `flatMap_slice`: the same slice of a composite's output is child `p`'s own output;
* `rates_slice_valuesSetList`: so after the composite is set, child `p`'s slice of its rates is
  child `p`'s rates, set from its own slice.
-/

namespace PlantSim

/-- The State Vector Protocol of a unit with state `α` over slots `β`. -/
structure OdeTarget (α β : Type) where
  odeSize : α → Nat
  odeValuesSet : α → List β → α × List β
  odeValues : α → List β
  odeRates : α → List β

namespace OdeTarget

variable {α β : Type}

/-- The laws of the protocol (spec §4.1) that one evaluation needs: `ode_values_set` consumes
exactly `ode_size` slots, reads no others, writes them into the unit's own state and keeps the
unit's size; `ode_values` copies that state out and `ode_rates` writes one rate per slot. A unit
that recomputes derived state when it is set keeps them. -/
structure GetSet (t : OdeTarget α β) : Prop where
  values_set_rest : ∀ a ys, (t.odeValuesSet a ys).2 = ys.drop (t.odeSize a)
  values_set_take : ∀ a ys,
    (t.odeValuesSet a (ys.take (t.odeSize a))).1 = (t.odeValuesSet a ys).1
  size_values_set : ∀ a ys, t.odeSize (t.odeValuesSet a ys).1 = t.odeSize a
  length_values : ∀ a, (t.odeValues a).length = t.odeSize a
  length_rates : ∀ a, (t.odeRates a).length = t.odeSize a
  values_values_set : ∀ a ys, ys.length = t.odeSize a →
    t.odeValues (t.odeValuesSet a ys).1 = ys

/-- The whole protocol: also, setting the values a unit answers leaves the unit as it was, which
is what the pack/unpack round trip needs. -/
structure Lawful (t : OdeTarget α β) extends GetSet t : Prop where
  values_set_values : ∀ a, (t.odeValuesSet a (t.odeValues a)).1 = a

/-! ## The composite over a list of children -/

/-- `for (child ...) it = child->ode_values_set(it); return it;` -/
def valuesSetList (t : OdeTarget α β) : List α → List β → List α × List β
  | [], it => ([], it)
  | a :: as, it =>
    let r := t.odeValuesSet a it
    let rs := valuesSetList t as r.2
    (r.1 :: rs.1, rs.2)

/-- The composite of children traversed in order: sizes are added (`ret += child->ode_size()`),
the input cursor is threaded through the children and each child writes after the previous. -/
def list (t : OdeTarget α β) : OdeTarget (List α) β where
  odeSize as := (as.map t.odeSize).sum
  odeValuesSet := valuesSetList t
  odeValues as := as.flatMap t.odeValues
  odeRates as := as.flatMap t.odeRates

/-- The slot of child `p` in a composite: the sizes of the children before it, added. -/
def offset (t : OdeTarget α β) (as : List α) (p : Nat) : Nat :=
  ((as.map t.odeSize).take p).sum

variable {t : OdeTarget α β}

@[simp] theorem valuesSetList_nil (ys : List β) : valuesSetList t [] ys = ([], ys) := rfl

@[simp] theorem valuesSetList_cons (a : α) (as : List α) (ys : List β) :
    valuesSetList t (a :: as) ys =
      ((t.odeValuesSet a ys).1 :: (valuesSetList t as (t.odeValuesSet a ys).2).1,
        (valuesSetList t as (t.odeValuesSet a ys).2).2) := rfl

@[simp] theorem list_odeSize (as : List α) : (list t).odeSize as = (as.map t.odeSize).sum := rfl

@[simp] theorem list_odeValuesSet (as : List α) (ys : List β) :
    (list t).odeValuesSet as ys = valuesSetList t as ys := rfl

@[simp] theorem list_odeValues (as : List α) :
    (list t).odeValues as = as.flatMap t.odeValues := rfl

@[simp] theorem list_odeRates (as : List α) :
    (list t).odeRates as = as.flatMap t.odeRates := rfl

@[simp] theorem length_valuesSetList (as : List α) (ys : List β) :
    (valuesSetList t as ys).1.length = as.length := by
  induction as generalizing ys with
  | nil => rfl
  | cons a as ih => simp [ih]

/-! ## Each law of the composite, from the children's -/

section GetSet

variable (h : t.GetSet)
include h

theorem valuesSetList_rest (as : List α) (ys : List β) :
    (valuesSetList t as ys).2 = ys.drop ((as.map t.odeSize).sum) := by
  induction as generalizing ys with
  | nil => rfl
  | cons a as ih => simp [ih, h.values_set_rest, List.drop_drop, Nat.add_comm]

theorem valuesSetList_take (as : List α) (ys : List β) :
    (valuesSetList t as (ys.take (as.map t.odeSize).sum)).1 = (valuesSetList t as ys).1 := by
  induction as generalizing ys with
  | nil => rfl
  | cons a as ih =>
    have hfirst : (t.odeValuesSet a (ys.take (t.odeSize a + (as.map t.odeSize).sum))).1 =
        (t.odeValuesSet a ys).1 := by
      rw [← h.values_set_take, List.take_take, Nat.min_eq_left (Nat.le_add_right _ _),
        h.values_set_take]
    have hrest : (t.odeValuesSet a (ys.take (t.odeSize a + (as.map t.odeSize).sum))).2 =
        ((t.odeValuesSet a ys).2).take (as.map t.odeSize).sum := by
      rw [h.values_set_rest, h.values_set_rest, List.drop_take, Nat.add_sub_cancel_left]
    simp only [List.map_cons, List.sum_cons, valuesSetList_cons, hfirst, hrest, ih]

theorem size_valuesSetList (as : List α) (ys : List β) :
    (valuesSetList t as ys).1.map t.odeSize = as.map t.odeSize := by
  induction as generalizing ys with
  | nil => rfl
  | cons a as ih => simp [ih, h.size_values_set]

theorem values_valuesSetList (as : List α) (ys : List β)
    (hys : ys.length = (as.map t.odeSize).sum) :
    (valuesSetList t as ys).1.flatMap t.odeValues = ys := by
  induction as generalizing ys with
  | nil => exact (List.eq_nil_of_length_eq_zero (by simpa using hys)).symm
  | cons a as ih =>
    simp only [List.map_cons, List.sum_cons] at hys
    have hhead : t.odeValues (t.odeValuesSet a ys).1 = ys.take (t.odeSize a) := by
      rw [← h.values_set_take, h.values_values_set _ _ (by simp; omega)]
    simp only [valuesSetList_cons, List.flatMap_cons, hhead, h.values_set_rest]
    rw [ih _ (by simp; omega), List.take_append_drop]

/-- A composite of children that keep the get-after-set laws keeps them. -/
theorem GetSet.list : (list t).GetSet where
  values_set_rest := valuesSetList_rest h
  values_set_take := valuesSetList_take h
  size_values_set as ys := by simp [size_valuesSetList h]
  length_values as := by simp [Function.comp_def, h.length_values]
  length_rates as := by simp [Function.comp_def, h.length_rates]
  values_values_set as ys hys := values_valuesSetList h as ys hys

end GetSet

theorem valuesSetList_values (h : t.Lawful) (as : List α) (rest : List β) :
    valuesSetList t as (as.flatMap t.odeValues ++ rest) = (as, rest) := by
  induction as with
  | nil => rfl
  | cons a as ih =>
    have hset : (t.odeValuesSet a (t.odeValues a ++ (as.flatMap t.odeValues ++ rest))).1 = a := by
      rw [← h.values_set_take, List.take_left' (h.length_values a), h.values_set_values]
    have hrest : (t.odeValuesSet a (t.odeValues a ++ (as.flatMap t.odeValues ++ rest))).2 =
        as.flatMap t.odeValues ++ rest := by
      rw [h.values_set_rest, List.drop_left' (h.length_values a)]
    simp only [List.flatMap_cons, List.append_assoc, valuesSetList_cons, hset, hrest, ih]

theorem Lawful.list (h : t.Lawful) : (list t).Lawful :=
  { h.toGetSet.list with
    values_set_values := fun as => by
      simpa using congrArg Prod.fst (valuesSetList_values h as []) }

/-! ## Slices of the buffer -/

theorem values_set_list_getElem (h : t.GetSet) (as : List α) (ys : List β) (p : Nat)
    (hp : p < as.length) :
    (valuesSetList t as ys).1.get ⟨p, by simpa using hp⟩ =
      (t.odeValuesSet as[p] ((ys.drop (offset t as p)).take (t.odeSize as[p]))).1 := by
  induction as generalizing ys p with
  | nil => simp at hp
  | cons a as ih =>
    cases p with
    | zero => simp [offset, h.values_set_take]
    | succ p =>
      simp only [List.get_eq_getElem] at ih ⊢
      simp only [valuesSetList_cons, List.getElem_cons_succ, offset, List.map_cons,
        List.take_succ_cons, List.sum_cons]
      rw [ih _ _ (by simpa using hp), h.values_set_rest, List.drop_drop]
      rfl

theorem flatMap_slice (f : α → List β) (hf : ∀ a, (f a).length = t.odeSize a)
    (as : List α) (p : Nat) (hp : p < as.length) :
    ((as.flatMap f).drop (offset t as p)).take (t.odeSize as[p]) = f as[p] := by
  have hmap : as.map t.odeSize = (as.map f).map List.length := by
    simp [Function.comp_def, hf]
  have hdrop := List.drop_sum_flatten (as.map f) p
  rw [← hmap] at hdrop
  rw [List.flatMap, offset, hdrop, List.drop_eq_getElem_cons (by simpa using hp)]
  simp [← hf]

/-- After a composite is set from `ys`, child `p`'s slice of its rates is child `p`'s rates once set
from its own slice of `ys`: every state variable lines up with its own rate. -/
theorem rates_slice_valuesSetList (h : t.GetSet) (as : List α) (ys : List β) (p : Nat)
    (hp : p < as.length) :
    (((valuesSetList t as ys).1.flatMap t.odeRates).drop (offset t as p)).take (t.odeSize as[p]) =
      t.odeRates (t.odeValuesSet as[p] ((ys.drop (offset t as p)).take (t.odeSize as[p]))).1 := by
  have hlen : p < (valuesSetList t as ys).1.length := by simpa using hp
  have hoff : offset t (valuesSetList t as ys).1 p = offset t as p := by
    simp only [offset, size_valuesSetList h]
  have hsize : t.odeSize (valuesSetList t as ys).1[p] = t.odeSize as[p] := by
    simpa [List.getElem?_map, hlen, hp] using congrArg (·[p]?) (size_valuesSetList h as ys)
  have hset := values_set_list_getElem h as ys p hp
  rw [List.get_eq_getElem] at hset
  have hslice := flatMap_slice t.odeRates h.length_rates _ p hlen
  rwa [hoff, hsize, hset] at hslice

end OdeTarget

end PlantSim
