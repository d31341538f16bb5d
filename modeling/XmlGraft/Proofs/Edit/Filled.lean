/-
  Filled — an element after fields were written into it.

  Every field looks for its child in the list that the fields before it changed.  Names are
  distinct, so it finds the child that stood there from the start, or none.  So what all fields do
  together can be told from the element as it was: each child that has a field gets its value in its
  place, each field without a child makes one at the end, and every other child stays.

  1. **Set fields** (`map_ofPairs`, `mem_ofPairs_iff`): fields that are set one after the other have
     the names in the order in which they came first, each with the value that came last.  By
     induction from the last pair, since that is the one which is set last.

  2. **Children of other names** (`findChild?_writeOne`): a value does not move them.  A changed
     child stays at its index, and a new one comes behind all others.

  3. **What is written** (`Filled`), for one value (`filled_writeOne`) and for one more
     (`Filled.cons`): which children are changed, which are new and which stay.  The number of
     changes is that of a set of indices (`touched`); one value touches an index or none, and two
     names never touch the same one, so the sets of two steps are disjoint and their sizes add up.

  4. **Fields applied** (`applyTo_ofPairs`): the above together, with the second application, which
     finds every value held.
-/
import Mathlib.Data.Finset.Card
import Mathlib.Data.Finset.Range
import XmlGraft.Proofs.Graft.Again

namespace XmlGraft

open Markup Markup.Element

namespace Fields

/-! ## Set fields -/

/-- **Setting a field** among distinct names: afterwards the name has the value, and all fields
    under other names are as they were.  With a name twice the earlier entry would take the value
    and the later one stay. -/
theorem mem_setIn_iff {entries : List (Text × Scalar)} (distinct : (entries.map (·.1)).Nodup)
    {name n : Text} {value v : Scalar} :
    (n, v) ∈ setIn name value entries ↔ n = name ∧ v = value ∨ n ≠ name ∧ (n, v) ∈ entries := by
  induction entries with
  | nil => simp [setIn]
  | cons entry entries ih =>
    obtain ⟨m, u⟩ := entry
    rw [List.map_cons, List.nodup_cons] at distinct
    obtain ⟨unseen, distinct⟩ := distinct
    rw [setIn]
    by_cases same : m = name
    · subst same
      rw [if_pos rfl, List.mem_cons, List.mem_cons, Prod.mk.injEq, Prod.mk.injEq]
      have apart : (n, v) ∈ entries → n ≠ m := by
        rintro mem rfl
        exact unseen (List.mem_map.2 ⟨_, mem, rfl⟩)
      tauto
    · rw [if_neg same, List.mem_cons, List.mem_cons, Prod.mk.injEq, ih distinct]
      constructor
      · rintro (⟨rfl, rfl⟩ | ⟨rfl, rfl⟩ | ⟨ne, mem⟩)
        · exact .inr ⟨same, .inl ⟨rfl, rfl⟩⟩
        · exact .inl ⟨rfl, rfl⟩
        · exact .inr ⟨ne, .inr mem⟩
      · tauto

theorem ofPairs_concat (pairs : List (Text × Scalar)) (p : Text × Scalar) :
    ofPairs (pairs ++ [p]) = (ofPairs pairs).set p.1 p.2 := List.foldl_concat ..

/-- **The names of set fields** are the names of the pairs, each kept where it stands first:
    setting a name again changes a value in its place and moves nothing. -/
theorem map_ofPairs (pairs : List (Text × Scalar)) :
    (ofPairs pairs).entries.map (·.1) = (pairs.map (·.1)).eraseDups := by
  induction pairs using List.reverseRecOn with
  | nil => rfl
  | append_singleton pairs p ih =>
    rw [ofPairs_concat, set, map_setIn, ih, List.map_append, List.eraseDups_append]
    have seen : p.1 ∈ (pairs.map (·.1)).eraseDups ↔ p.1 ∈ pairs.map (·.1) := List.mem_eraseDups
    -- a name that was there keeps its place, and a new one comes last
    by_cases mem : p.1 ∈ pairs.map (·.1)
    · rw [if_pos (seen.2 mem), List.map_singleton, List.removeAll]
      simp [mem]
    · rw [if_neg (mt seen.1 mem), List.map_singleton, List.removeAll]
      simp [mem, List.eraseDups_cons]

/-- A pair is the last of its name when no pair of that name comes behind it. -/
def IsLast (pairs : List (Text × Scalar)) (name : Text) (value : Scalar) : Prop :=
  ∃ before after, pairs = before ++ (name, value) :: after ∧ ∀ p ∈ after, p.1 ≠ name

/-- Behind a list, a pair is the last of its name; the last of another name is where it was. -/
theorem isLast_concat {pairs : List (Text × Scalar)} {p : Text × Scalar} {name : Text}
    {value : Scalar} : IsLast (pairs ++ [p]) name value ↔
      name = p.1 ∧ value = p.2 ∨ name ≠ p.1 ∧ IsLast pairs name value := by
  constructor
  · rintro ⟨before, after, split, none⟩
    -- the pair in question is the one at the end, or stands before it
    rcases List.eq_nil_or_concat after with rfl | ⟨after, q, rfl⟩
    · obtain ⟨-, last⟩ := List.append_inj' split rfl
      obtain rfl := List.head_eq_of_cons_eq last
      exact .inl ⟨rfl, rfl⟩
    · rw [List.concat_eq_append] at split none
      rw [← List.cons_append, ← List.append_assoc] at split
      obtain ⟨rfl, last⟩ := List.append_inj' split rfl
      obtain rfl := List.head_eq_of_cons_eq last
      refine .inr ⟨Ne.symm (none p (by simp)), before, after, rfl, fun q mem => ?_⟩
      exact none q (List.mem_append_left _ mem)
  · rintro (⟨rfl, rfl⟩ | ⟨ne, before, after, rfl, none⟩)
    · exact ⟨pairs, [], rfl, List.forall_mem_nil _⟩
    · refine ⟨before, after ++ [p], by rw [List.append_assoc, List.cons_append], ?_⟩
      rw [List.forall_mem_append, List.forall_mem_singleton]
      exact ⟨none, Ne.symm ne⟩

/-- **The values of set fields** are those that came last.  By induction from the end of the
    pairs, since the last pair is the one that decides. -/
theorem mem_ofPairs_iff {pairs : List (Text × Scalar)} {name : Text} {value : Scalar} :
    (name, value) ∈ (ofPairs pairs).entries ↔ IsLast pairs name value := by
  induction pairs using List.reverseRecOn with
  | nil =>
    constructor
    · nofun
    · rintro ⟨before, after, split, -⟩
      simp at split
  | append_singleton pairs p ih =>
    rw [ofPairs_concat, set, mem_setIn_iff (distinct_ofPairs pairs), ih, isLast_concat]

end Fields

/-! ## Children of other names -/

namespace Markup.Element

variable {e c c' : Element} {p : Element → Bool} {front back : List Node}

theorem numbered_append (k : Nat) (ns ns' : List Node) :
    numbered k (ns ++ ns') = numbered k ns ++ numbered (k + ns.length) ns' := by
  rw [numbered, List.zipIdx_append, List.filterMap_append]
  rfl

/-- A child that is not searched for, in the place of another one. -/
theorem findChild?_replace_of_rejected (children : e.children = front ++ c.toNode :: back)
    (old : p c = false) (new : p c' = false) (tag : Tag) :
    (⟨tag, front ++ c'.toNode :: back⟩ : Element).findChild? p = e.findChild? p := by
  show (numbered 0 (front ++ c'.toNode :: back)).find? (p ·.2) = (numbered 0 e.children).find? (p ·.2)
  rw [children, numbered_append, numbered_append, List.find?_append, List.find?_append,
    numbered_toNode, numbered_toNode, List.find?_cons_of_neg (by simp [new]),
    List.find?_cons_of_neg (by simp [old])]

/-- A child that is not searched for, behind the others. -/
theorem findChild?_append_of_rejected (new : p c = false) :
    (e.append c.toNode).findChild? p = e.findChild? p := by
  show (numbered 0 (e.children ++ [c.toNode])).find? (p ·.2) = (numbered 0 e.children).find? (p ·.2)
  rw [numbered_append, List.find?_append, numbered_toNode, List.find?_cons_of_neg (by simp [new])]
  exact Option.or_none

/-- The child that is found stands at its index, and is one that was searched for. -/
theorem getElem?_of_findChild? {i : Nat} (found : e.findChild? p = some (i, c)) :
    e.children[i]? = some c.toNode ∧ p c = true := by
  obtain ⟨front, back, children, rfl, accepted, -⟩ := findChild?_eq_some_iff.1 found
  refine ⟨?_, accepted⟩
  rw [children, List.getElem?_append_right (Nat.le_refl _), Nat.sub_self, List.getElem?_cons_zero]

/-- **What an element holds as a value**: nothing at all for the empty value, and else a single
    text that resolves to it.  An element with a text and a comment holds no value, whatever the
    text is. -/
theorem holds_iff {value : Text} : c.holds value = true ↔
    value = [] ∧ c.children = [] ∨ ∃ raw, c.children = [.text raw] ∧ resolveOrSame raw = value := by
  obtain ⟨tag, children⟩ := c
  rw [holds]
  -- no child, one, or more, as in the definition
  rcases children with _ | ⟨n, _ | ⟨m, ns⟩⟩
  · simp
  · cases n <;> simp
  · cases n <;> simp

/-- A value that is not held is a change. -/
theorem setText_ne {value : Text} (h : ¬ c.holds value = true) : c.setText value ≠ c := by
  intro same
  exact h (by rw [← same]; exact holds_setText c value)

end Markup.Element

namespace Fields

variable {e e' : Element} {name other value : Text} {values : List (Text × Text)} {count : Nat}

/-- The first child of a name, with its index. -/
abbrev place? (e : Element) (name : Text) : Option (Nat × Element) := e.findChild? (·.name == name)

/-- **Writing a value** leaves the first child of another name in its place.  A child that is
    replaced keeps its index, and one that is added stands behind all others. -/
theorem findChild?_writeOne (ne : other ≠ name) :
    place? (writeOne e name value).1 other = place? e other := by
  rcases writeOne_cases e name value with ⟨front, c, back, children, same, -, ⟨-, h⟩ | h⟩ | ⟨-, h⟩ <;>
    rw [h]
  · refine findChild?_replace_of_rejected children ?_ ?_ _
    · exact beq_eq_false_iff_ne.2 (same.trans_ne (Ne.symm ne))
    · exact beq_eq_false_iff_ne.2 ((name_setText c value).trans same |>.trans_ne (Ne.symm ne))
  · exact findChild?_append_of_rejected (beq_eq_false_iff_ne.2 (Ne.symm ne))

/-- Two names do not share a child. -/
theorem name_eq_of_place? {i : Nat} {c c' : Element} (found : place? e name = some (i, c))
    (found' : place? e other = some (i, c')) : name = other := by
  obtain ⟨at_, named⟩ := getElem?_of_findChild? found
  obtain ⟨at', named'⟩ := getElem?_of_findChild? found'
  obtain rfl := toNode_inj (Option.some.inj (at_.symm.trans at'))
  exact (eq_of_beq named).symm.trans (eq_of_beq named')

/-! ## What is written -/

/-- The values under whose names there is no child. -/
def missing (e : Element) (values : List (Text × Text)) : List (Text × Text) :=
  values.filter fun v => (place? e v.1).isNone

/-- The indices at which the children of an element are not what they were. -/
def touched (e e' : Element) : Finset Nat :=
  {i ∈ Finset.range e'.children.length | e'.children[i]? ≠ e.children[i]?}

/-- **An element into which values were written**, and how many children that changed or added. -/
structure Filled (values : List (Text × Text)) (e e' : Element) (count : Nat) : Prop where
  /-- The tag is the same, but for the flag that a new child raises. -/
  tag : e'.tag
    = { e.tag with contentChanged := e.tag.contentChanged || !(missing e values).isEmpty }
  length_le : e.children.length ≤ e'.children.length
  /-- The first child of a name has the value, in its place. -/
  updated : ∀ v ∈ values, ∀ i c, place? e v.1 = some (i, c) →
    e'.children[i]? = some (c.setText v.2).toNode
  /-- Every other child is what it was, in its place. -/
  others : ∀ i n, e.children[i]? = some n → (∀ v ∈ values, ∀ c, place? e v.1 ≠ some (i, c)) →
    e'.children[i]? = some n
  /-- Behind them are new children, in the order of the values. -/
  appended : e'.children.drop e.children.length
    = (missing e values).map fun v => (Element.ofValue v.1 v.2).toNode
  count : count = (touched e e').card

/-- An index is touched when what stands there is not what stood there, or nothing did. -/
theorem mem_touched (le : e.children.length ≤ e'.children.length) {i : Nat} :
    i ∈ touched e e' ↔ e'.children[i]? ≠ e.children[i]? := by
  rw [touched, Finset.mem_filter, Finset.mem_range, and_iff_right_iff_imp]
  intro ne
  by_contra behind
  rw [List.getElem?_eq_none (by omega), List.getElem?_eq_none (by omega)] at ne
  exact ne rfl

theorem touched_self (e : Element) : touched e e = ∅ := by
  rw [touched, Finset.filter_eq_empty_iff]
  exact fun _ _ ne => ne rfl

/-- Another child at an index touches that index and no other. -/
theorem touched_putChild {c : Element} {n : Node} {i : Nat} (at_ : e.children[i]? = some n)
    (ne : c.toNode ≠ n) : touched e (e.putChild i c) = {i} := by
  ext j
  have le : e.children.length ≤ (e.putChild i c).children.length := by
    rw [putChild, List.length_set]
  rw [mem_touched le, Finset.mem_singleton, putChild]
  by_cases same : j = i
  · subst same
    obtain ⟨lt, -⟩ := List.getElem?_eq_some_iff.1 at_
    rw [List.getElem?_set_self lt, at_]
    simpa using ne
  · rw [List.getElem?_set_ne (Ne.symm same)]
    simpa using same

/-- A new last child touches the index behind the others. -/
theorem touched_append (e : Element) (n : Node) : touched e (e.append n) = {e.children.length} := by
  ext j
  have children : (e.append n).children = e.children ++ [n] := rfl
  have le : e.children.length ≤ (e.append n).children.length := by
    rw [children, List.length_append]
    omega
  rw [mem_touched le, Finset.mem_singleton, children]
  by_cases old : j < e.children.length
  · rw [List.getElem?_append_left old]
    simp only [ne_eq, not_true_eq_false, false_iff]
    omega
  · by_cases new : j = e.children.length
    · subst new
      simp
    · rw [List.getElem?_eq_none (by rw [List.length_append, List.length_singleton]; omega),
        List.getElem?_eq_none (by omega)]
      simpa using new

/-! ### One value -/

theorem filled_nil (e : Element) : Filled [] e e 0 where
  tag := by simp [missing]
  length_le := Nat.le_refl _
  updated _ mem := by cases mem
  others _ _ there _ := there
  appended := List.drop_length
  count := by rw [touched_self, Finset.card_empty]

/-- A value in the place of what a child held. -/
theorem filled_putChild {c : Element} {i : Nat} (found : place? e name = some (i, c))
    (unheld : ¬ c.holds value = true) :
    Filled [(name, value)] e (e.putChild i (c.setText value)) 1 := by
  have at_ := (getElem?_of_findChild? found).1
  have there : missing e [(name, value)] = [] := by simp [missing, found]
  refine ⟨by simp [there, putChild], ?_, ?_, ?_, ?_, ?_⟩
  · rw [putChild, List.length_set]
  · intro v mem j x found'
    obtain rfl := List.mem_singleton.1 mem
    obtain ⟨rfl, rfl⟩ := Prod.mk.inj (Option.some.inj (found.symm.trans found'))
    obtain ⟨lt, -⟩ := List.getElem?_eq_some_iff.1 at_
    rw [putChild, List.getElem?_set_self lt]
  · -- another index, so another child, which is not written to
    intro j n here apart
    have ne : i ≠ j := by
      rintro rfl
      exact apart _ List.mem_cons_self c found
    rw [putChild, List.getElem?_set_ne ne, here]
  · rw [there, putChild, List.map_nil]
    simp
  · rw [touched_putChild at_ fun same => setText_ne unheld (toNode_inj same), Finset.card_singleton]

/-- A value under a new name. -/
theorem filled_append (absent : place? e name = none) :
    Filled [(name, value)] e (e.append (Element.ofValue name value).toNode) 1 := by
  have new : missing e [(name, value)] = [(name, value)] := by simp [missing, absent]
  have children : (e.append (Element.ofValue name value).toNode).children
      = e.children ++ [(Element.ofValue name value).toNode] := rfl
  refine ⟨by simp [new, Element.append, Element.editChildren], ?_, ?_, ?_, ?_, ?_⟩
  · rw [children, List.length_append]
    omega
  · intro v mem j x found
    obtain rfl := List.mem_singleton.1 mem
    rw [absent] at found
    cases found
  · intro j n here _
    obtain ⟨lt, -⟩ := List.getElem?_eq_some_iff.1 here
    rw [children, List.getElem?_append_left lt, here]
  · rw [new, children, List.drop_left]
    rfl
  · rw [touched_append, Finset.card_singleton]

/-- **One value written** fills the element with it, in each of the three ways: nothing is counted
    for a value that was held, and one child for a value that was not. -/
theorem filled_writeOne (e : Element) (name value : Text) :
    Filled [(name, value)] e (writeOne e name value).1 (writeOne e name value).2.toNat := by
  cases found : place? e name with
  | none =>
    rw [writeOne, show e.findChild? (·.name == name) = none from found]
    exact filled_append found
  | some child =>
    obtain ⟨i, c⟩ := child
    rw [writeOne, show e.findChild? (·.name == name) = some (i, c) from found]
    by_cases holds : c.holds value = true
    · -- the child stays, and so does everything else
      simp only [holds, if_true]
      have there : missing e [(name, value)] = [] := by simp [missing, found]
      have at_ := (getElem?_of_findChild? found).1
      refine ⟨by simp [there], Nat.le_refl _, ?_, fun _ _ here _ => here, ?_, ?_⟩
      · intro v mem j x found'
        obtain rfl := List.mem_singleton.1 mem
        obtain ⟨rfl, rfl⟩ := Prod.mk.inj (Option.some.inj (found.symm.trans found'))
        rw [at_, setText, if_pos holds]
      · rw [there, List.drop_length, List.map_nil]
      · rw [touched_self]
        rfl
    · simp only [holds]
      exact filled_putChild found holds

/-! ### One value more -/

/-- What stands behind the first `n` of a list, when a longer list goes on as it did. -/
theorem drop_eq_append_drop {α : Type} {xs ys : List α} {n : Nat} (le : n ≤ xs.length)
    (same : ∀ i, n ≤ i → i < xs.length → ys[i]? = xs[i]?) :
    ys.drop n = xs.drop n ++ ys.drop xs.length := by
  refine List.ext_getElem? fun i => ?_
  by_cases lt : n + i < xs.length
  · rw [List.getElem?_append_left (by rw [List.length_drop]; omega), List.getElem?_drop,
      List.getElem?_drop, same _ (by omega) lt]
  · rw [List.getElem?_append_right (by rw [List.length_drop]; omega), List.getElem?_drop,
      List.getElem?_drop, List.length_drop, show xs.length + (i - (xs.length - n)) = n + i by omega]

section

variable {e₁ : Element} {v : Text × Text} {m : Nat}

/-- The first children of other names are not where the first value was written. -/
theorem Filled.stays (first : Filled [v] e e₁ m) (rest : Filled values e₁ e' count)
    (other : ∀ w ∈ values, w.1 ≠ v.1) (same : ∀ w ∈ values, place? e₁ w.1 = place? e w.1) {i : Nat}
    (mem : i ∈ touched e e₁) : e'.children[i]? = e₁.children[i]? := by
  have ne := (mem_touched first.length_le).1 mem
  have lt : i < e₁.children.length := List.mem_range.1 (Finset.mem_filter.1 mem).1
  rw [List.getElem?_eq_getElem lt]
  -- if a later value were written there, its child would have the name of the first
  refine rest.others i _ (List.getElem?_eq_getElem lt) fun w here c found => ne ?_
  rw [same w here] at found
  have at_ := (getElem?_of_findChild? found).1
  rw [at_]
  refine first.others i _ at_ fun v' here' c' found' => ?_
  obtain rfl := List.mem_singleton.1 here'
  exact other w here (name_eq_of_place? found found')

/-- **One value before others** of other names.  What is asked of the first step is that the other
    values find their children where it left them; then the children touched by the two are
    different ones, so their numbers add up. -/
theorem Filled.cons (first : Filled [v] e e₁ m) (rest : Filled values e₁ e' count)
    (other : ∀ w ∈ values, w.1 ≠ v.1) (same : ∀ w ∈ values, place? e₁ w.1 = place? e w.1) :
    Filled (v :: values) e e' (count + m) := by
  have missing_same : missing e₁ values = missing e values :=
    List.filter_congr fun w mem => by rw [same w mem]
  have missing_cons : missing e (v :: values) = missing e [v] ++ missing e values := by
    rw [missing, missing, missing, ← List.filter_append]
    rfl
  have le := first.length_le
  have le' := rest.length_le
  refine ⟨?_, by omega, ?_, ?_, ?_, ?_⟩
  · rw [rest.tag, first.tag, missing_same, missing_cons]
    cases missing e [v] <;> simp
  · intro w mem i c found
    rcases List.mem_cons.1 mem with rfl | mem
    · refine rest.others i _ (first.updated w List.mem_cons_self i c found) fun w' mem' x found' => ?_
      rw [same w' mem'] at found'
      exact other w' mem' (name_eq_of_place? found' found)
    · rw [← same w mem] at found
      exact rest.updated w mem i c found
  · intro i n here off
    rw [List.forall_mem_cons] at off
    refine rest.others i n (first.others i n here (List.forall_mem_singleton.2 off.1)) ?_
    intro w mem
    rw [same w mem]
    exact off.2 w mem
  · -- new children of the first value come before those of the others
    rw [drop_eq_append_drop le fun i old new => ?_, first.appended, rest.appended, missing_same,
      missing_cons, List.map_append]
    refine first.stays rest other same ((mem_touched le).2 ?_)
    rw [List.getElem?_eq_getElem new, List.getElem?_eq_none old]
    exact Option.some_ne_none _
  · -- what one step touched, the next ones leave
    have apart : Disjoint (touched e₁ e') (touched e e₁) := by
      rw [Finset.disjoint_left]
      exact fun i more mem => (mem_touched le').1 more (first.stays rest other same mem)
    rw [rest.count, first.count, ← Finset.card_union_of_disjoint apart]
    congr 1
    ext i
    rw [Finset.mem_union, mem_touched le, mem_touched le', mem_touched (le.trans le')]
    by_cases mem : i ∈ touched e e₁
    · have ne := (mem_touched le).1 mem
      rw [first.stays rest other same mem]
      tauto
    · have eq := not_not.1 (mt (mem_touched le).2 mem)
      rw [eq]
      tauto

end

/-- **Values written** under distinct names fill the element with all of them.  The induction is
    on the values; that a step leaves the children of other names in place is
    `findChild?_writeOne`. -/
theorem filled_writeAll (e : Element) {values : List (Text × Text)}
    (distinct : (values.map (·.1)).Nodup) :
    Filled values e (writeAll e values).1 (writeAll e values).2 := by
  induction values generalizing e with
  | nil => exact filled_nil e
  | cons v values ih =>
    obtain ⟨name, value⟩ := v
    obtain ⟨unseen, rest⟩ := List.nodup_cons.1 distinct
    have other (w : Text × Text) (mem : w ∈ values) : w.1 ≠ name :=
      fun same => unseen (List.mem_map.2 ⟨w, mem, same⟩)
    rw [writeAll_cons]
    exact (filled_writeOne e name value).cons (ih _ rest) other
      fun w mem => findChild?_writeOne (other w mem)

/-- **Nothing is counted** exactly when nothing changed.  One direction is that an unchanged
    element has no touched child; for the other, an element with the same tag and no touched child
    has the same children. -/
theorem Filled.count_eq_zero_iff (h : Filled values e e' count) : count = 0 ↔ e' = e := by
  constructor
  · intro none
    have untouched : touched e e' = ∅ := Finset.card_eq_zero.1 (h.count.symm.trans none)
    have same (i : Nat) : e'.children[i]? = e.children[i]? := by
      by_contra ne
      have mem := (mem_touched h.length_le).2 ne
      rw [untouched] at mem
      cases mem
    have children : e'.children = e.children := List.ext_getElem? same
    -- no child came, so every field had one
    have nothing : missing e values = [] := by
      have appended := h.appended
      rw [children, List.drop_length] at appended
      exact List.map_eq_nil_iff.1 appended.symm
    have tag : e'.tag = e.tag := by
      rw [h.tag, nothing]
      simp
    obtain ⟨t, ns⟩ := e
    obtain ⟨t', ns'⟩ := e'
    cases tag
    cases children
    rfl
  · rintro rfl
    rw [h.count, touched_self, Finset.card_empty]

/-! ## Fields applied -/

/-- **Fields applied to an element.**  They have distinct names, in the order in which these were set
    first, each with the value that was set last.  In the element the first child of each name then
    stands for its value; which children changed, came or stayed is what `Filled` tells.  A second time
    nothing is left to do. -/
theorem applyTo_ofPairs (pairs : List (Text × Scalar)) (e : Element) :
    (ofPairs pairs).entries.map (·.1) = (pairs.map (·.1)).eraseDups ∧
      ((ofPairs pairs).entries.map (·.1)).Nodup ∧
      (∀ name value, (name, value) ∈ (ofPairs pairs).entries ↔ IsLast pairs name value) ∧
      (∀ v ∈ (ofPairs pairs).written, ∃ c, ((ofPairs pairs).applyTo e).1.child? v.1 = some c ∧
        (v.2 = [] ∧ c.children = [] ∨ ∃ raw, c.children = [.text raw] ∧ resolveOrSame raw = v.2)) ∧
      Filled (ofPairs pairs).written e ((ofPairs pairs).applyTo e).1 ((ofPairs pairs).applyTo e).2 ∧
      (((ofPairs pairs).applyTo e).2 = 0 ↔ ((ofPairs pairs).applyTo e).1 = e) ∧
      (ofPairs pairs).applyTo ((ofPairs pairs).applyTo e).1 = (((ofPairs pairs).applyTo e).1, 0) := by
  have distinct : ((ofPairs pairs).written.map (·.1)).Nodup :=
    (distinct_ofPairs pairs).sublist (ofPairs pairs).map_written_sublist
  have held := keeps_writeAll e distinct
  have filled := filled_writeAll e distinct
  refine ⟨map_ofPairs pairs, distinct_ofPairs pairs, fun _ _ => mem_ofPairs_iff, ?_, filled,
    filled.count_eq_zero_iff, writeAll_of_keeps held⟩
  intro v mem
  obtain ⟨c, found, holds⟩ := held v mem
  exact ⟨c, found, holds_iff.1 holds⟩

end Fields

end XmlGraft
