/-
  Attributes — what stands in a tag after its name.

  An attribute is a key, `=` and a value between quotes; white space may stand around the `=` and
  need not stand between attributes.  A key is everything up to white space or `=`.  Attributes are
  read from the left, each one's value before the next one's key, and the first fault ends the
  reading.

  * `tagName`      the name a tag's content begins with
  * `attributes`   the attributes after it, with their values resolved

  Two things are not checked.  A key need not be a name, so a tag may hold `1=""`; and a tag may
  begin with white space, which makes its name empty.  Both are kept as they stand, since a document
  that is not touched has to come out as it was.

  A key that stood before is a fault, told with the place of the earlier one, and it is found before
  the value is looked at.  The offsets of faults are bytes into the content of the tag.
-/
import XmlGraft.Markup.Reference
import XmlGraft.Markup.Token

namespace XmlGraft.Markup

/-- **Attribute**: a name as written and a value with its references resolved. -/
structure Attribute where
  name : Text
  value : Text
  deriving DecidableEq, Repr

/-- The attribute as `name="value"`, the value escaped. -/
def Attribute.written (a : Attribute) : Text :=
  a.name ++ ['=', '"'] ++ escapeValue a.value ++ ['"']

/-- **Why attributes cannot be read.** Offsets are bytes into the tag's content. -/
inductive AttributeFault
  /-- No `=` follows the key. -/
  | expectedEquals (offset : Nat)
  /-- Nothing follows the `=`. -/
  | expectedValue (offset : Nat)
  /-- What follows the `=` is no quote. -/
  | unquotedValue (offset : Nat)
  /-- The quote that opens the value is not closed. -/
  | expectedQuote (offset : Nat) (quote : Char)
  /-- The key stood before. -/
  | duplicated (offset earlier : Nat)
  deriving DecidableEq, Repr

/-- What is wrong with the attributes, in words. -/
def AttributeFault.message : AttributeFault → String
  | expectedEquals offset =>
    s!"position {offset}: attribute key must be directly followed by `=` or space"
  | expectedValue offset =>
    s!"position {offset}: `=` must be followed by an attribute value"
  | unquotedValue offset =>
    s!"position {offset}: attribute value must be enclosed in `\"` or `'`"
  | expectedQuote offset quote =>
    s!"position {offset}: missing closing quote `{quote}` in attribute value"
  | duplicated offset earlier =>
    s!"position {offset}: duplicated attribute, previous declaration at position {earlier}"

/-- Why a tag cannot be read. -/
inductive TagFault
  /-- An attribute is not written as one. -/
  | misread (fault : AttributeFault)
  /-- A value holds a reference that cannot be resolved. -/
  | badValue (fault : ReferenceFault)
  deriving DecidableEq, Repr

/-- What is wrong with the tag, in words. -/
def TagFault.message : TagFault → String
  | misread fault => "attribute error: " ++ fault.message
  | badValue fault => "invalid attribute value: " ++ fault.message

/-! ## One attribute -/

/-- An attribute as it stands in the tag. -/
structure WrittenAttribute where
  key : Text
  /-- Offset of the key. -/
  offset : Nat
  /-- The value between its quotes, references and all. -/
  raw : Text
  deriving DecidableEq, Repr

/-- Past the white space: the offset reached and the rest. -/
def skipSpace (o : Nat) (t : Text) : Nat × Text :=
  (o + Text.size (t.takeWhile isTagSpace), t.dropWhile isTagSpace)

/-- A character that can stand in a key after its first one. -/
def isKeyChar (c : Char) : Bool := c != '=' && !isTagSpace c

/-- The value that `t` begins with, where `t` starts at byte `o` of a content of `total` bytes. -/
def nextValue (total o : Nat) (t : Text) : Except AttributeFault (Text × Nat × Text) :=
  match skipSpace o t with
  | (_, []) => .error (.expectedValue total)
  | (o, q :: t) =>
    if q = '"' ∨ q = '\'' then
      match t.dropWhile (· != q) with
      | [] => .error (.expectedQuote total q)
      | _ :: rest =>
        let raw : Text := t.takeWhile (· != q)
        .ok (raw, o + raw.size + 2, rest)
    else .error (.unquotedValue o)

/-- **The attribute that `t` begins with**, the offset behind it and the rest; `none` when only
    white space is left.  `seen` are the keys that stood before. -/
def nextAttribute (total : Nat) (seen : List (Text × Nat)) (o : Nat) (t : Text) :
    Except AttributeFault (Option (WrittenAttribute × Nat × Text)) :=
  match skipSpace o t with
  | (_, []) => .ok none
  | (start, k :: t) =>
    let key : Text := k :: t.takeWhile isKeyChar
    match skipSpace (start + key.size) (t.dropWhile isKeyChar) with
    | (_, []) => .error (.expectedEquals total)
    | (o, c :: t) =>
      if c = '=' then
        -- the key is compared before its value is read, so of two faults the earlier one is told
        match seen.lookup key with
        | some earlier => .error (.duplicated start earlier)
        | none =>
          match nextValue total (o + 1) t with
          | .error fault => .error fault
          | .ok (raw, o, rest) => .ok (some (⟨key, start, raw⟩, o, rest))
      else .error (.expectedEquals o)

/-! Each attribute read leaves less to read. -/

theorem length_dropWhile_le (p : Char → Bool) (t : Text) :
    (t.dropWhile p).length ≤ t.length := (List.dropWhile_sublist p).length_le

theorem length_lt_of_skipSpace {o o' : Nat} {t rest : Text} {c : Char}
    (h : skipSpace o t = (o', c :: rest)) : rest.length < t.length := by
  have := length_dropWhile_le isTagSpace t
  have := congrArg (·.2.length) h
  simp only [skipSpace, List.length_cons] at this
  omega

theorem length_le_of_nextValue {total o : Nat} {t : Text} {found : Text × Nat × Text}
    (h : nextValue total o t = .ok found) : found.2.2.length ≤ t.length := by
  unfold nextValue at h
  split at h
  · simp at h
  · next skipped =>
    have := length_lt_of_skipSpace skipped
    split at h
    · split at h
      · simp at h
      · rename_i q s _ _ _ _ dropped
        have := length_dropWhile_le (· != q) s
        have := congrArg List.length dropped
        cases h
        simp only [List.length_cons] at this ⊢
        omega
    · simp at h

theorem length_lt_of_nextAttribute {total : Nat} {seen : List (Text × Nat)} {o : Nat} {t : Text}
    {a : WrittenAttribute} {o' : Nat} {rest : Text}
    (h : nextAttribute total seen o t = .ok (some (a, o', rest))) : rest.length < t.length := by
  unfold nextAttribute at h
  split at h
  · simp at h
  · next skipped =>
    have := length_lt_of_skipSpace skipped
    simp only at h
    split at h
    · simp at h
    · next s _ _ _ _ skipped =>
      have := length_lt_of_skipSpace skipped
      have := length_dropWhile_le isKeyChar s
      split at h
      · split at h
        · simp at h
        · split at h
          · simp at h
          · next value =>
            have := length_le_of_nextValue value
            cases h
            simp only at this
            omega
      · simp at h

/-! ## All attributes -/

/-- The attributes from byte `o` on. -/
def attributesFrom (total : Nat) (seen : List (Text × Nat)) (o : Nat) (t : Text) :
    Except TagFault (List Attribute) :=
  match read : nextAttribute total seen o t with
  | .error fault => .error (.misread fault)
  | .ok none => .ok []
  | .ok (some (a, o', rest)) =>
    have := length_lt_of_nextAttribute read
    match resolve a.raw with
    | .error fault => .error (.badValue fault)
    | .ok value => do
      let more ← attributesFrom total (seen ++ [(a.key, a.offset)]) o' rest
      return ⟨a.key, value⟩ :: more
termination_by t.length

/-- **The name a tag's content begins with**: everything up to white space. -/
def tagName (content : Text) : Text := content.takeWhile (!isTagSpace ·)

/-- **The attributes in a tag's content**, after its name. -/
def attributes (content : Text) : Except TagFault (List Attribute) :=
  let name := tagName content
  attributesFrom content.size [] name.size (content.drop name.length)

end XmlGraft.Markup
