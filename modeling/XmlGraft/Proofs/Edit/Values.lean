/-
  Values — what writing fields into an element does to it.

  A field is written into the first child element of its name: that child gets the value, or a new
  child comes behind the others.  Two things are wanted of this.  The value is there afterwards, so
  that a second writing finds it and does nothing; and an element that can be written and read back
  stays one.

  1. **Children by name** (`child?_eq_find?`): the first child element of a name is the first among
     the elements.  Texts and comments between them do not count, so a lemma about lists is enough.

  2. **Held values** (`Element.Keeps`): the first child element of a name holds a value.  Writing a
     value makes it held (`keeps_writeOne`) and keeps what is held under other names.

  3. **Three ways to write one value** (`writeOne_cases`): the child holds it already, the child
     gets it, or a child is made.  Every lemma about a single value goes through these cases, and
     none of them opens the definition again.

  4. **Once written, always written** (`writeAll_of_keeps`): values that are held change nothing.
     The names have to be distinct for `keeps_writeAll`: of two values under one name only the last
     is held.

  5. **Legible elements** (`Legible.writeAll`): writing keeps a legible element legible.  A new
     child stands behind the others, so no text comes to stand next to another.
-/
import XmlGraft.Edit.Fields
import XmlGraft.Proofs.Edit.Places
import XmlGraft.Proofs.Markup.References

namespace XmlGraft

open Markup

namespace Markup.Element

/-! ## Children by name -/

/-- The search by index, without the index, is a search among the elements. -/
theorem map_findChild? (e : Element) (p : Element → Bool) :
    (e.findChild? p).map (·.2) = (elements e.children).find? p := by
  have search : e.findChild? p = (numbered 0 e.children).find? (p ·.2) := rfl
  rw [search, ← map_numbered 0, List.find?_map]
  rfl

theorem child?_eq_find? (e : Element) (name : Text) :
    e.child? name = (elements e.children).find? (·.name == name) := map_findChild? e _

/-- The first child element of a name, when another one of that name takes the place of an
    element. -/
theorem child?_replace {e c c' : Element} {tag : Tag} {front back : List Node} {name : Text}
    (children : e.children = front ++ c.toNode :: back) (same : c'.name = c.name)
    (other : c.name ≠ name) :
    (⟨tag, front ++ c'.toNode :: back⟩ : Element).child? name = e.child? name := by
  have this : (c.name == name) = false := beq_eq_false_iff_ne.2 other
  have that : (c'.name == name) = false := by rw [same, this]
  rw [child?_eq_find?, child?_eq_find?, children]
  simp only [elements_append, elements_toNode, List.find?_append, List.find?_cons, this, that]

/-- A new last child of one name is not found under another. -/
theorem child?_append {e x : Element} {name : Text} (other : x.name ≠ name) :
    (e.append x.toNode).child? name = e.child? name := by
  have that : (x.name == name) = false := beq_eq_false_iff_ne.2 other
  rw [child?_eq_find?, child?_eq_find?]
  simp [append, editChildren, elements_append, that]

/-- The first child element of a name, without what it remembers of its source. -/
theorem child?_bare (e : Element) (name : Text) : e.bare.child? name = (e.child? name).map bare := by
  rw [child?_eq_find?, child?_eq_find?, bare, elements_bareAll, List.find?_map]
  rfl

/-! ## Values -/

/-- Whether a value is held is seen from the children alone, so nothing remembered bears on it. -/
theorem holds_bare (e : Element) (value : Text) : e.bare.holds value = e.holds value := by
  obtain ⟨tag, children⟩ := e
  rw [Element.holds, Element.holds, Element.bare]
  -- no child, one, or more
  rcases children with _ | ⟨n, _ | ⟨m, ns⟩⟩
  · rfl
  · cases n <;> rfl
  · cases n <;> rfl

/-- **The nodes for a value hold it**: for the empty value there are none, and else one text, the
    value escaped, which resolving gives back. -/
theorem holds_valueNodes (tag : Tag) (value : Text) :
    (⟨tag, valueNodes value⟩ : Element).holds value = true := by
  rw [holds, valueNodes]
  cases value with
  | nil => rfl
  | cons c t =>
    simp only [List.isEmpty_cons, Bool.false_eq_true, if_false, Node.ofText]
    rw [resolveOrSame, resolve_escapeText]
    exact beq_self_eq_true _

/-- An element holds the value it was set to, whether it held it before or not. -/
theorem holds_setText (e : Element) (value : Text) : (e.setText value).holds value = true := by
  rw [setText]
  split
  · next h => exact h
  · exact holds_valueNodes _ _

theorem holds_ofValue (name value : Text) : (ofValue name value).holds value = true :=
  holds_valueNodes _ _

theorem name_setText (e : Element) (value : Text) : (e.setText value).name = e.name := by
  rw [setText]
  split <;> rfl

/-- **The first child element of a name holds a value.** -/
def Keeps (e : Element) (name value : Text) : Prop :=
  ∃ c, e.child? name = some c ∧ c.holds value = true

/-- A child of a name is found in each tree that says the same, and the two say the same. -/
theorem child?_of_bare {e e' c : Element} {name : Text} (same : e'.bare = e.bare)
    (found : e.child? name = some c) : ∃ c', e'.child? name = some c' ∧ c'.bare = c.bare := by
  have map := child?_bare e' name
  rw [same, child?_bare, found, Option.map_some, eq_comm, Option.map_eq_some_iff] at map
  exact map

/-- What a tree remembers of its source does not count for what it holds. -/
theorem Keeps.of_bare {e e' : Element} {name value : Text} (h : Keeps e name value)
    (same : e'.bare = e.bare) : Keeps e' name value := by
  obtain ⟨c, found, holds⟩ := h
  obtain ⟨c', found', bare⟩ := child?_of_bare same found
  exact ⟨c', found', by rw [← holds_bare, bare, holds_bare, holds]⟩

end Markup.Element

namespace Fields

open Markup.Element

/-! ## One value -/

/-- The three ways of writing one value: the first child of the name holds it already, or is set
    to it, or there is no such child and one is made. -/
theorem writeOne_cases (e : Element) (name value : Text) :
    (∃ (front : List Node) (c : Element) (back : List Node),
      e.children = front ++ c.toNode :: back ∧ c.name = name ∧
      (∀ x ∈ elements front, x.name ≠ name) ∧
      ((c.holds value = true ∧ writeOne e name value = (e, false)) ∨
        writeOne e name value = (⟨e.tag, front ++ (c.setText value).toNode :: back⟩, true))) ∨
    ((∀ x ∈ elements e.children, x.name ≠ name) ∧
      writeOne e name value = (e.append (ofValue name value).toNode, true)) := by
  unfold writeOne
  split
  · next i c found =>
    obtain ⟨front, back, children, rfl, same, first⟩ := findChild?_eq_some_iff.1 found
    refine .inl ⟨front, c, back, children, eq_of_beq same,
      fun x hx => beq_eq_false_iff_ne.1 (first x hx), ?_⟩
    split
    · next holds => exact .inl ⟨holds, rfl⟩
    · exact .inr (by rw [putChild_eq children])
  · next none =>
    exact .inr ⟨fun x hx => beq_eq_false_iff_ne.1 (findChild?_eq_none_iff.1 none x hx), rfl⟩

/-- A child is the one of its name when no element before it has the name. -/
theorem child?_of_first {e c : Element} {front back : List Node} {name : Text}
    (children : e.children = front ++ c.toNode :: back) (same : c.name = name)
    (first : ∀ x ∈ elements front, x.name ≠ name) : e.child? name = some c := by
  have none : (elements front).find? (·.name == name) = none :=
    List.find?_eq_none.2 fun x hx => by simpa using first x hx
  rw [child?_eq_find?, children]
  simp only [elements_append, elements_toNode, List.find?_append, none, List.find?_cons, same,
    beq_self_eq_true, Option.none_or]

/-- **A value that is written is held**, by the first child of its name; for a new child this is
    so since there was no child of that name before. -/
theorem keeps_writeOne (e : Element) (name value : Text) :
    Keeps (writeOne e name value).1 name value := by
  rcases writeOne_cases e name value with ⟨front, c, back, children, same, first, h⟩ | ⟨first, h⟩
  · -- held before, or set in place of what was held; either way it is the child that was found
    rcases h with ⟨holds, h⟩ | h <;> rw [h]
    · exact ⟨c, child?_of_first children same first, holds⟩
    · exact ⟨_, child?_of_first rfl ((name_setText c value).trans same) first, holds_setText c value⟩
  · rw [h]
    exact ⟨_, child?_of_first rfl rfl first, holds_ofValue name value⟩

/-- Values under other names are still held. -/
theorem Keeps.writeOne {e : Element} {name value other value' : Text} (h : Keeps e other value')
    (ne : name ≠ other) : Keeps (Fields.writeOne e name value).1 other value' := by
  obtain ⟨x, found, holds⟩ := h
  refine ⟨x, ?_, holds⟩
  rw [← found]
  rcases writeOne_cases e name value with ⟨front, c, back, children, same, first, h⟩ | ⟨first, h⟩
  · rcases h with ⟨-, h⟩ | h <;> rw [h]
    exact child?_replace children (name_setText c value) (by rw [same]; exact ne)
  · rw [h]
    exact child?_append ne

/-- **A value that is held changes nothing**, neither the element nor a flag, and is not counted. -/
theorem writeOne_of_keeps {e : Element} {name value : Text} (h : Keeps e name value) :
    writeOne e name value = (e, false) := by
  obtain ⟨x, found, holds⟩ := h
  -- from the child to its index, which is what the search gives
  rw [child?, Option.map_eq_some_iff] at found
  obtain ⟨⟨i, c⟩, found, rfl⟩ := found
  rw [writeOne, found]
  show (if c.holds value then (e, false) else _) = _
  rw [if_pos holds]

/-- Writing does not change the tag, but for the flag of the content. -/
theorem tag_writeOne (e : Element) (name value : Text) :
    (writeOne e name value).1.name = e.name ∧ (writeOne e name value).1.tag.origin = e.tag.origin := by
  rcases writeOne_cases e name value with ⟨front, c, back, -, -, -, ⟨-, h⟩ | h⟩ | ⟨-, h⟩ <;> rw [h] <;>
    exact ⟨rfl, rfl⟩

/-! ## All values -/

theorem writeAll_cons (e : Element) (name value : Text) (more : List (Text × Text)) :
    writeAll e ((name, value) :: more)
      = ((writeAll (writeOne e name value).1 more).1,
        (writeAll (writeOne e name value).1 more).2 + (writeOne e name value).2.toNat) := rfl

theorem tag_writeAll (e : Element) (values : List (Text × Text)) :
    (writeAll e values).1.name = e.name ∧ (writeAll e values).1.tag.origin = e.tag.origin := by
  induction values generalizing e with
  | nil => exact ⟨rfl, rfl⟩
  | cons v values ih =>
    obtain ⟨name, value⟩ := v
    rw [writeAll_cons]
    have own := tag_writeOne e name value
    exact ⟨(ih _).1.trans own.1, (ih _).2.trans own.2⟩

theorem Keeps.writeAll {e : Element} {other value' : Text} (h : Keeps e other value')
    {values : List (Text × Text)} (ne : ∀ v ∈ values, v.1 ≠ other) :
    Keeps (Fields.writeAll e values).1 other value' := by
  induction values generalizing e with
  | nil => exact h
  | cons v values ih =>
    rw [List.forall_mem_cons] at ne
    exact ih (Keeps.writeOne h ne.1) ne.2

/-- **All values that are written under distinct names are held** at the end.  A value that is
    written stays held while values under other names are written behind it. -/
theorem keeps_writeAll (e : Element) {values : List (Text × Text)}
    (distinct : (values.map (·.1)).Nodup) :
    ∀ v ∈ values, Keeps (writeAll e values).1 v.1 v.2 := by
  induction values generalizing e with
  | nil => simp
  | cons v values ih =>
    obtain ⟨name, value⟩ := v
    obtain ⟨unseen, rest⟩ := List.nodup_cons.1 distinct
    rw [List.forall_mem_cons]
    -- the first value is held after its own step, and the others have other names
    refine ⟨Keeps.writeAll (keeps_writeOne e name value) fun w hw same => unseen ?_, ih _ rest⟩
    exact List.mem_map.2 ⟨w, hw, same⟩

/-- **Values that are all held change nothing.**  Together with `keeps_writeAll` this makes a
    second writing idle, and the count of the second time zero. -/
theorem writeAll_of_keeps {e : Element} {values : List (Text × Text)}
    (h : ∀ v ∈ values, Keeps e v.1 v.2) : writeAll e values = (e, 0) := by
  induction values with
  | nil => rfl
  | cons v values ih =>
    obtain ⟨name, value⟩ := v
    rw [List.forall_mem_cons] at h
    rw [writeAll_cons, writeOne_of_keeps h.1, ih h.2]
    rfl

/-! ## Legible elements -/

/-- The nodes for a value are legible: there is one text, and what was escaped can be resolved. -/
theorem legible_valueNodes (value : Text) :
    (valueNodes value).IsChain Separate ∧ ∀ n ∈ valueNodes value, n.Every Node.Legible := by
  rw [valueNodes]
  cases value with
  | nil => exact ⟨.nil, by simp⟩
  | cons c t =>
    refine ⟨.singleton _, fun n hn => ?_⟩
    obtain rfl := List.mem_singleton.1 hn
    refine .leaf rfl ⟨⟨?_, ?_⟩, c :: t, resolve_escapeText _⟩
    · -- only a text that is empty is escaped to nothing
      intro nothing
      have same : (.ok [] : Except ReferenceFault Text) = .ok (c :: t) := by
        rw [← resolve_escapeText (c :: t), nothing, resolve, resolveFrom]
      cases same
    · exact fun d hd => ne_mark_of_mem_escapeText hd

theorem legible_named {name : Text} (plain : PlainName name) : (Element.named name).Legible := by
  have own : (Element.named name).tag.Named := ⟨plain, by simp [named], List.nodup_nil⟩
  exact legible_iff.2 ⟨own.sound rfl, own, .nil, by simp [named]⟩

theorem legible_ofValue {name : Text} (plain : PlainName name) (value : Text) :
    (ofValue name value).Legible := by
  have own : (ofValue name value).tag.Named := ⟨plain, by simp [ofValue, named], List.nodup_nil⟩
  exact legible_iff.2 ⟨own.sound rfl, own, legible_valueNodes value⟩

/-- Only the list of children counts for a legible element, not whether it was changed. -/
theorem legible_withChildren {e : Element} (h : e.Legible) {ns : List Node} (b : Bool)
    (chain : ns.IsChain Separate) (below : ∀ n ∈ ns, n.Every Node.Legible) :
    (⟨{ e.tag with contentChanged := b }, ns⟩ : Element).Legible := by
  obtain ⟨sound, named, -, -⟩ := legible_iff.1 h
  exact legible_iff.2 ⟨sound.flagged b, named.flagged b, chain, below⟩

/-- **A new last child** of a legible element is an element.  It stands behind the other children,
    and whatever the last of them is, no two texts come together. -/
theorem legible_append {e x : Element} (h : e.Legible) (h' : x.Legible) :
    (e.append x.toNode).Legible := by
  obtain ⟨-, -, chain, below⟩ := legible_iff.1 h
  refine legible_withChildren h true ?_ ?_
  · refine List.isChain_append.2 ⟨chain, .singleton _, fun a _ b hb => ?_⟩
    cases hb
    exact separate_right rfl
  · rw [List.forall_mem_append]
    refine ⟨below, fun n hn => ?_⟩
    obtain rfl := List.mem_singleton.1 hn
    exact h'

theorem legible_setText {e : Element} (h : e.Legible) (value : Text) : (e.setText value).Legible := by
  rw [setText]
  split
  · exact h
  · obtain ⟨chain, below⟩ := legible_valueNodes value
    exact legible_withChildren h true chain below

/-- A legible child in the place of another: the list is cut as before. -/
theorem Legible.replace {e c c' : Element} (h : e.Legible) {front back : List Node}
    (children : e.children = front ++ c.toNode :: back) (h' : c'.Legible) :
    (⟨e.tag, front ++ c'.toNode :: back⟩ : Element).Legible := by
  have found : e.below? [front.length] = some c := below?_cons.2 ⟨front, c, back, children, rfl, rfl⟩
  refine Element.Legible.changeBelow? (f := fun _ => c') h found h' ?_
  rw [changeBelow?_cons children]
  rfl

theorem Legible.writeOne {e : Element} (h : e.Legible) {name : Text} (plain : PlainName name)
    (value : Text) : (Fields.writeOne e name value).1.Legible := by
  rcases writeOne_cases e name value with ⟨front, c, back, children, -, -, ⟨-, own⟩ | own⟩ | ⟨-, own⟩ <;>
    rw [own]
  · exact h
  · obtain ⟨-, -, -, below⟩ := legible_iff.1 h
    exact Legible.replace h children (legible_setText (below c.toNode (by rw [children]; simp)) value)
  · exact legible_append h (legible_ofValue plain value)

/-- **Writing values under plain names keeps an element legible.**  The values themselves may be
    any texts, for they are escaped; a name stands in a tag as it is. -/
theorem Legible.writeAll {e : Element} (h : e.Legible) {values : List (Text × Text)}
    (plain : ∀ v ∈ values, PlainName v.1) : (Fields.writeAll e values).1.Legible := by
  induction values generalizing e with
  | nil => exact h
  | cons v values ih =>
    rw [List.forall_mem_cons] at plain
    exact ih (Legible.writeOne h plain.1 v.2) plain.2

end Fields

end XmlGraft
