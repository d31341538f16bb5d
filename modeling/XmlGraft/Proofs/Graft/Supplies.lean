/-
  Supplies — which markers are drawn does not show in what a graft gives.

  A graft draws markers until one of them is good, puts it into the tree, and cuts it out of the
  text again.  What it gives is said here without a marker (`outcome?`): the document as it is
  written with the characters of the replacement in the place of the element.

  1. **Counting** (`standsOnce_of_occurrences`): a marker is good when it occurs once, counted from
     the left without overlap.  Where no two occurrences overlap, that is the one offset at which it
     stands.  A marker of which no end is its beginning never overlaps itself, in any text
     (`apart_of_unbordered`).

  2. **Outcome** (`outcome?_of_graft`): a marker that is plain and does not overlap itself is cut
     out where it was put in, so that what a graft gives is the outcome.

  3. **Two supplies** (`graft_eq_of_discernible`): so two supplies give the same.  A marker that
     overlaps itself and the text in front of it counts once, and is cut out too early
     (`not_graft_eq_overlapping`).  The count does not see this; it sees only one of two places.

  That the outcome is a function without a marker among its arguments is the point of its
  definition.  It has a result wherever the unit and the site are there, whether or not a supply
  leads to it; a graft whose markers can be told from the text gives this result or fails for want
  of a marker.
-/
import XmlGraft.Proofs.Graft.Marker

namespace XmlGraft

open Markup

/-! ## Counting -/

namespace Text

/-- **No two occurrences overlap**: each one begins where the one before has ended, or later. -/
def Apart (m t : Text) : Prop :=
  ∀ i ∈ offsets m t, ∀ j ∈ offsets m t, i < j → i + m.length ≤ j

instance (m t : Text) : Decidable (Apart m t) := by
  unfold Apart
  infer_instance

/-- A text that occurs is counted. -/
theorem occurrences_pos {m t : Text} (some : m ≠ []) {i : Nat} (here : m <+: t.drop i) :
    1 ≤ occurrences m t := by
  induction t generalizing i with
  | nil =>
    rw [List.drop_nil, List.prefix_nil] at here
    exact absurd here some
  | cons c t ih =>
    rw [occurrences, if_neg (by simpa using some)]
    split
    · omega
    · -- it does not stand here, so it stands further behind
      next other =>
      cases i with
      | zero => exact absurd (List.isPrefixOf_iff_prefix.2 here) other
      | succ i => exact ih here

/-- A text that is counted occurs. -/
theorem exists_offset {m t : Text} (counted : 1 ≤ occurrences m t) : ∃ i, i ∈ offsets m t := by
  induction t with
  | nil =>
    rw [occurrences] at counted
    split at counted
    · next empty => exact ⟨0, mem_offsets.2 ⟨Nat.zero_le _, by simp [List.isEmpty_iff.1 empty]⟩⟩
    · omega
  | cons c t ih =>
    by_cases first : m.isPrefixOf (c :: t) = true
    · exact ⟨0, mem_offsets.2 ⟨Nat.zero_le _, List.isPrefixOf_iff_prefix.1 first⟩⟩
    · have some : ¬ m.isEmpty = true := by
        intro empty
        rw [List.isEmpty_iff.1 empty] at first
        exact first rfl
      rw [occurrences, if_neg some, if_neg first] at counted
      obtain ⟨i, mem⟩ := ih counted
      obtain ⟨le, here⟩ := mem_offsets.1 mem
      exact ⟨i + 1, mem_offsets.2 ⟨Nat.succ_le_succ le, here⟩⟩

/-- **A text that occurs twice without overlap is counted twice.**  The count goes on behind each
    occurrence that it finds, and the first of the two does not end behind the beginning of the
    second. -/
theorem two_le_occurrences {m t : Text} (some : m ≠ []) {i j : Nat} (first : m <+: t.drop i)
    (second : m <+: t.drop j) (apart : i + m.length ≤ j) : 2 ≤ occurrences m t := by
  have length := List.length_pos_iff.2 some
  induction t generalizing i j with
  | nil =>
    rw [List.drop_nil, List.prefix_nil] at first
    exact absurd first some
  | cons c t ih =>
    rw [occurrences, if_neg (by simpa using some)]
    split
    · -- the count goes on behind this occurrence, where the second one is still to come
      have rest : m <+: (t.drop (m.length - 1)).drop (j - m.length) := by
        rw [List.drop_drop, show m.length - 1 + (j - m.length) = j - 1 by omega]
        obtain ⟨j, rfl⟩ : ∃ j', j = j' + 1 := ⟨j - 1, by omega⟩
        exact second
      have more := occurrences_pos some rest
      omega
    · next other =>
      cases i with
      | zero => exact absurd (List.isPrefixOf_iff_prefix.2 first) other
      | succ i =>
        obtain ⟨j, rfl⟩ : ∃ j', j = j' + 1 := ⟨j - 1, by omega⟩
        exact ih first second (by omega)

/-- **What occurs once, counted without overlap, stands at one offset**, where no two occurrences
    overlap.  For a marker such as two equal letters this fails behind a third one. -/
theorem standsOnce_of_occurrences {m t : Text} (some : m ≠ []) (once : occurrences m t = 1)
    (apart : Apart m t) : StandsOnce m t := by
  obtain ⟨i, here⟩ := exists_offset (Nat.le_of_eq once.symm)
  have only : ∀ j ∈ offsets m t, j = i := by
    intro j there
    have not_before (a b : Nat) (ha : a ∈ offsets m t) (hb : b ∈ offsets m t) : ¬ a < b := by
      intro before
      have twice := two_le_occurrences some (mem_offsets.1 ha).2 (mem_offsets.1 hb).2
        (apart a ha b hb before)
      omega
    have := not_before i j here there
    have := not_before j i there here
    omega
  -- all offsets are the same one, and none is listed twice
  have distinct : (offsets m t).Nodup := List.nodup_range.filter _
  have all := List.eq_replicate_of_mem only
  rw [all, List.nodup_replicate] at distinct
  have some_offset := List.length_pos_of_mem here
  rw [StandsOnce]
  omega

/-- **No end of the text is its beginning**, the whole text apart. -/
def Unbordered (m : Text) : Prop := ∀ k < m.length, 0 < k → ¬ m.drop k <+: m

instance (m : Text) : Decidable (Unbordered m) := by
  unfold Unbordered
  infer_instance

/-- Occurrences of such a text never overlap. -/
theorem apart_of_unbordered {m : Text} (h : Unbordered m) (t : Text) : Apart m t := by
  intro i first j second before
  by_contra overlap
  obtain ⟨-, rest, whole⟩ := mem_offsets.1 first
  obtain ⟨-, second⟩ := mem_offsets.1 second
  -- the end of the first occurrence is the beginning of the second
  refine h (j - i) (by omega) (by omega) (List.prefix_of_prefix_length_le ?_ second ?_)
  · have behind := congrArg (List.drop (j - i)) whole
    rw [List.drop_drop, show i + (j - i) = j by omega,
      List.drop_append_of_le_length (by omega)] at behind
    exact ⟨rest, behind⟩
  · rw [List.length_drop]
    omega

end Text

namespace Graft

/-! ## Outcome -/

/-- **The document with a replacement at a site**: written with its characters in the place of the
    element and of the spaces before it. -/
def replaced (d : Document) (site : Site) (parent : Element) (replacement : Text) : Text :=
  let (children, i) := withoutLayoutBefore parent.children site.index
  put d site.parent children i replacement

/-- **What a graft gives**, said without a marker. -/
def outcome? (d : Document) (target : Address) (s : Settings) : Option Grafted := do
  let unit ← s.unit.toOption
  let site ← (site? d.root target).toOption
  let parent ← d.root.at? site.parent
  let element ← parent.childAt? site.index
  let anchor ← parent.position?
  if element.isPristine then
    return ⟨d.written, d.written != d.source.text, none, none⟩
  else
    let isLast := site.index + 1 == parent.children.length
    let text := replaced d site parent ((Surroundings.of d s unit anchor).replacement element isLast)
    return ⟨text, text != d.source.text, some element.name, some anchor⟩

/-- **Every marker that is taken can be discerned**: it is plain, and nowhere in the marked document
    does it overlap itself. -/
def Discernible (d : Document) (target : Address) (markers : Nat → Text) : Prop :=
  ∀ n < maxAttempts, ∀ site parent, site? d.root target = .ok site →
    d.root.at? site.parent = some parent →
    (placed? d.source.text (marked d site parent) [] (markers n)).isSome = true →
    PlainMarker (markers n) ∧ Text.Apart (markers n) (marked d site parent (markers n))

section

variable {d : Document} {target : Address} {markers : Nat → Text}

/-- **A marker that is taken** has characters, and is counted once in the marked document.  That
    is all the program looks at. -/
theorem of_isSome_placed? {source replacement marker : Text} {marked : Text → Text}
    (h : (placed? source marked replacement marker).isSome = true) :
    marker ≠ [] ∧ Text.occurrences marker (marked marker) = 1 := by
  unfold placed? at h
  split at h
  · cases h
  · next fresh =>
    split at h
    · next once =>
      refine ⟨?_, once⟩
      rintro rfl
      -- the source holds the text without characters
      refine fresh ?_
      cases source <;> rfl
    · cases h

/-- **A marker that can be discerned is told from the text around it**: that it is counted once is
    enough. -/
theorem Discernible.told (h : Discernible d target markers) : Told d target markers := by
  intro n hn site parent atSite found accepted
  obtain ⟨plain, apart⟩ := h n hn site parent atSite found accepted
  obtain ⟨some_marker, once⟩ := of_isSome_placed? accepted
  exact ⟨plain, Text.standsOnce_of_occurrences some_marker once apart⟩

/-- Plain markers without a border can be discerned in every document. -/
theorem discernible_of_unbordered
    (h : ∀ n < maxAttempts, PlainMarker (markers n) ∧ Text.Unbordered (markers n)) :
    Discernible d target markers := by
  intro n hn site parent _ _ _
  obtain ⟨plain, unbordered⟩ := h n hn
  exact ⟨plain, Text.apart_of_unbordered unbordered _⟩

/-- **What a graft gives is the outcome**, whichever marker was taken: a value that is written
    down without a marker. -/
theorem outcome?_of_graft {s : Settings} {g : Grafted} (h : graft d target s markers = .ok g)
    (told : Told d target markers) : outcome? d target s = some g := by
  obtain ⟨unit, p, front, element, back, parent, anchor, hunit, site, found, children, located,
    outcome⟩ := exists_of_graft h
  have at_ : d.root.at? ⟨p⟩ = some parent := found
  have child : parent.childAt? front.length = some element :=
    Element.childAt?_eq_some_iff.2 ⟨front, back, children, rfl⟩
  have last : (front.length + 1 == parent.children.length) = back.isEmpty := by
    rw [children]
    cases back <;> simp
  -- the outcome makes the same checks, and they go well because the graft does
  simp only [outcome?, hunit, site, Except.toOption, bind, Option.bind_some, at_, child, located,
    last]
  rcases outcome with ⟨pristine, rfl⟩ | ⟨changed, text, drawn, placed, rfl⟩
  · rw [if_pos pristine]
    rfl
  · -- the marker was cut out where it was put in, and the replacement stands there
    obtain ⟨left, right, -, -, context⟩ := Element.below?_context found
    have same : replaced d ⟨⟨p⟩, front.length⟩ parent
        ((Surroundings.of d s unit anchor).replacement element back.isEmpty) = text := by
      rw [replaced]
      simp only [children, withoutLayoutBefore_eq]
      rw [put_eq found context, eq_of_firstPlaced site found children told context placed]
    rw [if_neg (by simp [changed]), same]
    rfl

/-! ## Two supplies -/

/-- **The markers never show**: two supplies whose markers can be discerned give the same, the
    document with the replacement in the place of the element. -/
theorem graft_eq_of_discernible {s : Settings} {markers' : Nat → Text} {g g' : Grafted}
    (discernible : Discernible d target markers) (discernible' : Discernible d target markers')
    (done : graft d target s markers = .ok g) (done' : graft d target s markers' = .ok g') :
    g = g' ∧ outcome? d target s = some g := by
  have outcome := outcome?_of_graft done discernible.told
  have outcome' := outcome?_of_graft done' discernible'.told
  constructor
  · rw [outcome] at outcome'
    exact Option.some.inj outcome'
  · exact outcome

end

end Graft

/-! ### A child behind a letter -/

namespace BehindLetter

/-- A child behind one letter. -/
def text : Text := "<a>x<b/></a>".toList

/-- The child, as it was read. -/
def child : Element :=
  ⟨⟨['b'], [], some ⟨some ⟨1, 5⟩, ⟨⟨4, 8⟩, "<b/>".toList⟩, none⟩, false, false⟩, []⟩

/-- The root element with a field in its child. -/
def root : Element :=
  ⟨⟨['a'], [], some ⟨some ⟨1, 1⟩, ⟨⟨0, 3⟩, "<a>".toList⟩, some ⟨⟨8, 12⟩, "</a>".toList⟩⟩, false,
      false⟩,
    [.text ['x'], (child.append (Element.ofValue ['c'] ['1']).toNode).toNode]⟩

/-- The document with the field. -/
def document : Document := ⟨Source.ofText text, [], root, []⟩

/-- Where the child is. -/
def target : Address := ⟨[1]⟩

/-- What a graft of the child gives. -/
def grafted : Grafted :=
  ⟨"<a>x\n    <b>\n        <c>1</c>\n    </b>\n</a>".toList, true, some ['b'], some ⟨1, 1⟩⟩

/-- One marker, whenever one is drawn. -/
def constantly (m : Text) : Nat → Text := fun _ => m

theorem discernible_constantly {m : Text} (plain : Graft.PlainMarker m) (h : Text.Unbordered m) :
    Graft.Discernible document target (constantly m) :=
  Graft.discernible_of_unbordered fun _ _ => ⟨plain, h⟩

end BehindLetter

open BehindLetter in
/-- Two markers lead to the same text. -/
theorem graft_eq_of_discernible_behindLetter :
    Graft.Discernible document target (constantly "@M#".toList) ∧
    Graft.Discernible document target (constantly "[K]".toList) ∧
    graft document target .standard (constantly "@M#".toList) = .ok grafted ∧
    graft document target .standard (constantly "[K]".toList) = .ok grafted ∧
    Graft.outcome? document target .standard = some grafted := by
  have discernible : Graft.Discernible document target (constantly "@M#".toList) :=
    discernible_constantly (by decide) (by decide)
  have discernible' : Graft.Discernible document target (constantly "[K]".toList) :=
    discernible_constantly (by decide) (by decide)
  have done : graft document target .standard (constantly "@M#".toList) = .ok grafted := by with_unfolding_all rfl
  have done' : graft document target .standard (constantly "[K]".toList) = .ok grafted := by with_unfolding_all rfl
  obtain ⟨-, outcome⟩ := Graft.graft_eq_of_discernible discernible discernible' done done'
  exact ⟨discernible, discernible', done, done', outcome⟩

open BehindLetter in
/-- **A marker of two such letters** is counted once, and is cut out one letter too early, so the
    two supplies give different texts. -/
theorem not_graft_eq_overlapping :
    Document.parse text = .ok { document with root :=
      ⟨root.tag, [.text ['x'], child.toNode]⟩ } ∧
    graft document target .standard (constantly "@M#".toList) = .ok grafted ∧
    graft document target .standard (constantly ['x', 'x']) = .ok { grafted with
      text := "<a>\n    <b>\n        <c>1</c>\n    </b>\nx</a>".toList } := by
  refine ⟨?_, ?_, ?_⟩
  · with_unfolding_all rfl
  · with_unfolding_all rfl
  · with_unfolding_all rfl

end XmlGraft
