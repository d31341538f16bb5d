/-
  Majority — the indent unit that most elements of a document are indented by.

  The votes are collected on a way down the tree that goes through elements which do not vote.  They
  are read off lines, by rows and columns; what a vote says is in the text before two tags.

  1. **Margins** (`ownMargin?`, `ownIndent?_eq`): the blanks before a tag on its line, where there
     is nothing else.  The program compares the column of a tag with the blanks that its line begins
     with; the two are as many exactly when nothing else stands before the tag.

  2. **Votes** (`votes_perm`): one for each pair of a parent and a child, at any depth; those for a
     unit are as many as the pairs one step of it apart (`stepCount`, `count_documentVotes`).  The
     way down lists them in another order, and a count does not depend on the order.

  3. **The order of units** (`outvotes_total`, `outvotes_trans`): of two different units one
     outvotes the other, so that one at most outvotes all others, in whatever order they come
     (`Fair.leads_foldl`, `Fair.best_eq_some_iff`).  Ties are broken by width and by filler, so what
     is left is not a matter of who comes first.

  4. **The unit of a document** (`Counts`, `Prevails`, `inferUnit_majority`): the counts are the
     steps, listed in any order, and what is left of them is the unit that prevails.
-/
import Mathlib.Data.List.Perm.Basic
import XmlGraft.Layout.Convention
import XmlGraft.Proofs.Edit.Provenance

namespace XmlGraft.Layout

open Markup Text

/-! ## Margins -/

/-- **The margin of an element**: what stands before its tag on the line, if that is blank.  A byte-order
    mark stands on no line. -/
def ownMargin? (text : Text) (e : Element) : Option Text :=
  let line := lastLine (withoutMark (text.takeBytes e.range.start))
  if line.all isBlank then some line else none

/-- A line that is blank up to a tag begins with exactly these blanks. -/
theorem leadingBlanks_of_blank {t : Text} (blank : t.all isBlank = true) {c : Char}
    (other : isBlank c = false) (rest : Text) : leadingBlanks (t ++ c :: rest) = t := by
  rw [leadingBlanks, List.takeWhile_append_of_pos (List.all_eq_true.1 blank),
    List.takeWhile_cons_of_neg (by simp [other]), List.append_nil]

/-- A line that is not blank up to a tag begins with fewer blanks than that. -/
theorem length_leadingBlanks_lt {t : Text} (mixed : t.all isBlank = false) (rest : Text) :
    (leadingBlanks (t ++ rest)).length < t.length := by
  induction t with
  | nil => cases mixed
  | cons c t ih =>
    rw [List.cons_append, leadingBlanks, List.takeWhile_cons]
    by_cases blank : isBlank c = true
    · rw [List.all_cons, blank, Bool.true_and] at mixed
      rw [if_pos blank, List.length_cons, List.length_cons]
      exact Nat.succ_lt_succ (ih mixed)
    · rw [if_neg blank]
      exact Nat.succ_pos _

/-- A row of a source that has that many rows. -/
theorem getElem?_sourceLines (s : Source) {row : Nat} (lt : row < s.lineCount) :
    (sourceLines s)[row]? = some ((s.line? row).getD []) := by
  rw [sourceLines, List.getElem?_toArray, List.getElem?_map, List.getElem?_range lt, Option.map_some]

/-- The indentation of a tag behind a text.  The row is looked up by its number, and the blanks
    that it begins with are compared with the column of the tag. -/
theorem ownIndent?_behind {mark body before rest : Text} (hm : IsMark mark) (hb : Unmarked body)
    (whole : body = before ++ '<' :: rest) {tag : Tag}
    (position : tag.origin.bind (·.position) = some (.behind before)) :
    ownIndent? (sourceLines (Source.ofText (mark ++ body))) tag
      = if (lastLine before).all isBlank then some (lastLine before) else none := by
  obtain ⟨tail, line⟩ := exists_line?_behind hm hb whole
  have lt : before.count '\n' < (Source.ofText (mark ++ body)).lineCount := by
    show _ < (LineIndex.breaksFrom 0 (mark ++ body)).toArray.size + 1
    rw [List.size_toArray, LineIndex.length_breaksFrom, whole, List.count_append, List.count_append]
    omega
  rw [ownIndent?, position, Position.behind_eq]
  simp only [Option.bind_eq_bind, Option.bind_some, Nat.add_one_ne_zero, if_false, Nat.add_sub_cancel,
    getElem?_sourceLines _ lt, line, Option.getD_some, Nat.add_right_cancel_iff]
  cases blank : (lastLine before).all isBlank with
  | true => simp only [leadingBlanks_of_blank blank (c := '<') (by decide), if_true]
  | false =>
    have short := length_leadingBlanks_lt blank ('<' :: tail)
    rw [if_neg (by omega), if_neg Bool.false_ne_true]

/-- **The indentation of an element that was read** is its margin, for its recorded position is
    behind the text before its tag. -/
theorem ownIndent?_eq {text : Text} {d : Document} (one : AtMostOneMark text)
    (parsed : Document.parse text = .ok d) {x : Element} (mem : x ∈ d.root.within) :
    ownIndent? (sourceLines d.source) x.tag = ownMargin? text x := by
  obtain ⟨o, origin, own⟩ := (Document.recordedIn_of_parse one parsed).within mem
  obtain ⟨-, -, -, -, source, -⟩ := Document.exists_content_of_parse one parsed
  obtain ⟨before, rest, whole, size, begins⟩ := own.opening.exists_before
  obtain ⟨tail, rfl⟩ := ((List.prefix_append ['<'] _).trans own.begins).trans begins
  have start : x.range.start = before.size := by
    rw [Element.range, show x.tag.origin = some o from origin]
    exact size.symm
  have cut : text.takeBytes before.size = before := by rw [whole, takeBytes_size]
  have position : x.tag.origin.bind (·.position) = some (.behind (withoutMark before)) := by
    rw [show x.tag.origin = some o from origin, Option.bind_some, own.position, ← size,
      Position.ofByte, cut]
  obtain ⟨mark, body, rfl, hm, hb⟩ := one.split
  have body_eq : body = withoutMark before ++ '<' :: tail := by
    rw [← (withoutMark_append hm hb).1, whole]
    exact withoutMark_append_cons before (by decide) tail
  rw [source, ownIndent?_behind hm hb body_eq position, ownMargin?, start, cut]

/-! ## Votes -/

/-- Every parent in a tree with each of its child elements. -/
def couples (root : Element) : List (Element × Element) :=
  root.within.flatMap fun p => (elements p.children).map (p, ·)

/-- Is the margin of a child that of its parent and one step of a unit? -/
def isStep (text : Text) (u : IndentUnit) (p c : Element) : Bool :=
  (ownMargin? text p).any fun margin => ownMargin? text c == some (margin ++ u.text)

/-- **How many children of a tree stand one step of a unit further in than their parents.** -/
def stepCount (text : Text) (root : Element) (u : IndentUnit) : Nat :=
  (couples root).countP fun (p, c) => isStep text u p c

theorem allVotes_eq_flatMap (lines : Array Text) (parent : Option Text) (ns : List Node) :
    allVotes lines parent ns = ns.flatMap (votes lines parent) := by
  induction ns with
  | nil => rfl
  | cons n ns ih => rw [allVotes, ih, List.flatMap_cons]

/-- The votes of an element and its children. -/
def votesOf (lines : Array Text) (p : Element) : List IndentUnit :=
  (elements p.children).filterMap fun c => vote? (ownIndent? lines p.tag) (ownIndent? lines c.tag)

/-- **The votes in a node**: its own, and those of all parents in it, in some order.  By induction
    on the tree, for any indentation of the parent. -/
theorem votes_perm (lines : Array Text) (parent : Option Text) (n : Node) :
    (votes lines parent n).Perm ((n.element?.bind fun c => vote? parent (ownIndent? lines c.tag)).toList
      ++ n.within.flatMap (votesOf lines)) := by
  induction n using Node.induct generalizing parent with
  | element tag children ih =>
    rw [votes, allVotes_eq_flatMap, Node.within, List.flatMap_cons, ← List.append_assoc]
    -- each child has a vote of its own, and those below it
    have each : (children.flatMap (votes lines (ownIndent? lines tag))).Perm (children.flatMap fun n =>
        (n.element?.bind fun c => vote? (ownIndent? lines tag) (ownIndent? lines c.tag)).toList
          ++ n.within.flatMap (votesOf lines)) :=
      List.Perm.flatMap_left _ fun n mem => ih n mem _
    have own : (children.flatMap fun n =>
        (n.element?.bind fun c => vote? (ownIndent? lines tag) (ownIndent? lines c.tag)).toList)
          = votesOf lines ⟨tag, children⟩ := by
      rw [votesOf, elements, List.filterMap_filterMap, List.filterMap_eq_flatMap_toList]
    have below : (children.flatMap fun n => n.within.flatMap (votesOf lines))
        = (allWithin children).flatMap (votesOf lines) := by
      rw [allWithin_eq_flatMap, List.flatMap_assoc]
    have apart := List.flatMap_append_perm children
      (fun n => (n.element?.bind fun c => vote? (ownIndent? lines tag) (ownIndent? lines c.tag)).toList)
      fun n => n.within.flatMap (votesOf lines)
    rw [own, below] at apart
    rw [List.append_assoc]
    exact (each.trans apart.symm).append_left _
  | text raw | comment raw | other markup => exact .refl _

theorem width_of_ofText? {t : Text} {u : IndentUnit} (h : IndentUnit.ofText? t = some u) :
    0 < u.width := by
  unfold IndentUnit.ofText? at h
  split at h
  · split at h
    · cases h
      exact Nat.succ_pos _
    · cases h
  · split at h
    · cases h
      exact Nat.succ_pos _
    · cases h
  · cases h

/-- **A vote** is for the step between two indentations, when it is a unit. -/
theorem vote?_eq_some_iff {p c : Option Text} {u : IndentUnit} :
    vote? p c = some u ↔
      0 < u.width ∧ ∃ margin, p = some margin ∧ c = some (margin ++ u.text) := by
  constructor
  · -- what is left of the child's margin behind its parent's has to be a unit
    intro h
    rw [vote?] at h
    simp only [Option.bind_eq_bind, Option.bind_eq_some_iff] at h
    obtain ⟨indent, rfl, margin, rfl, step, cut, unit⟩ := h
    refine ⟨width_of_ofText? unit, margin, rfl, ?_⟩
    rw [IndentUnit.text_of_ofText? unit, dropStart?_eq_some_iff.1 cut]
  · rintro ⟨pos, margin, rfl, rfl⟩
    rw [vote?]
    simp only [Option.bind_eq_bind, Option.bind_some, dropStart?_append, IndentUnit.ofText?_text pos]

section

variable {text : Text} {d : Document} {u : IndentUnit}

/-- The votes that a document has for its unit. -/
def documentVotes (d : Document) : List IndentUnit := votes (sourceLines d.source) none d.root.toNode

/-- The votes of a document are those of all parents in it; the root element itself has no parent.
    -/
theorem documentVotes_perm (d : Document) :
    (documentVotes d).Perm (d.root.within.flatMap (votesOf (sourceLines d.source))) := by
  have perm := votes_perm (sourceLines d.source) none d.root.toNode
  have alone : (d.root.toNode.element?.bind fun c => vote? none (ownIndent? (sourceLines d.source) c.tag))
      = none := by
    rw [element?_toNode, Option.bind_some]
    cases ownIndent? (sourceLines d.source) d.root.tag <;> rfl
  rwa [alone, Option.toList_none, List.nil_append] at perm

/-- **The votes for a unit** are the steps that the document takes in it. -/
theorem count_documentVotes (one : AtMostOneMark text) (parsed : Document.parse text = .ok d)
    (pos : 0 < u.width) : (documentVotes d).count u = stepCount text d.root u := by
  rw [(documentVotes_perm d).count_eq, stepCount, couples, List.count_flatMap, List.countP_flatMap]
  congr 1
  refine List.map_congr_left fun p mem => ?_
  simp only [Function.comp_apply]
  rw [votesOf, List.count_filterMap, List.countP_map]
  refine List.countP_congr fun c child => ?_
  -- parent and child are elements of the document
  have inside : c ∈ d.root.within := by
    obtain ⟨n, here, element⟩ := List.mem_filterMap.1 child
    obtain rfl := element?_eq_some_iff.1 element
    refine Node.mem_within_trans mem ?_
    exact List.mem_cons_of_mem _ (mem_allWithin.2 ⟨_, here, c.mem_within_self⟩)
  rw [Function.comp_apply, ownIndent?_eq one parsed mem, ownIndent?_eq one parsed inside, isStep,
    beq_iff_eq, vote?_eq_some_iff, Option.any_eq_true]
  simp only [pos, true_and, beq_iff_eq]

theorem width_of_mem_documentVotes (mem : u ∈ documentVotes d) : 0 < u.width := by
  obtain ⟨p, -, own⟩ := List.mem_flatMap.1 ((documentVotes_perm d).mem_iff.1 mem)
  obtain ⟨c, -, vote⟩ := List.mem_filterMap.1 own
  exact (vote?_eq_some_iff.1 vote).1

/-- A unit has votes when there are steps of it. -/
theorem mem_documentVotes_iff (one : AtMostOneMark text) (parsed : Document.parse text = .ok d) :
    u ∈ documentVotes d ↔ 0 < u.width ∧ 0 < stepCount text d.root u := by
  constructor
  · intro mem
    have pos := width_of_mem_documentVotes mem
    rw [← count_documentVotes one parsed pos]
    exact ⟨pos, List.count_pos_iff.2 mem⟩
  · rintro ⟨pos, some_step⟩
    rw [← count_documentVotes one parsed pos] at some_step
    exact List.count_pos_iff.1 some_step

end

/-! ## The order of units -/

/-- A unit with its number of votes. -/
abbrev Entry := IndentUnit × Nat

/-- A tab comes before a space. -/
def fillerRank : Filler → Nat
  | .tab => 0
  | .space => 1

theorem fillerRank_inj {f f' : Filler} (h : fillerRank f = fillerRank f') : f = f' := by
  cases f <;> cases f' <;> first | rfl | cases h

/-- Of two fillers the tab comes first. -/
theorem fillerRank_lt_iff {f f' : Filler} (ne : f ≠ f') :
    fillerRank f < fillerRank f' ↔ f = .tab := by
  cases f <;> cases f' <;> first | decide | exact absurd rfl ne

theorem unit_eq {u v : IndentUnit} (filler : u.filler = v.filler) (width : u.width = v.width) :
    u = v := by
  cases u
  cases v
  cases filler
  cases width
  rfl

section

variable {a b c : Entry}

/-- **Outvoting**: by more votes, else by the lesser width, else as a tab. -/
theorem outvotes_iff : outvotes a b = true ↔
    b.2 < a.2 ∨ b.2 = a.2 ∧ (a.1.width < b.1.width ∨
      a.1.width = b.1.width ∧ fillerRank a.1.filler < fillerRank b.1.filler) := by
  have tab : (a.1.filler == .tab && b.1.filler == .space) = true ↔
      fillerRank a.1.filler < fillerRank b.1.filler := by
    cases a.1.filler <;> cases b.1.filler <;> decide
  unfold outvotes
  split
  · rw [decide_eq_true_eq]
    omega
  · split
    · rw [decide_eq_true_eq]
      omega
    · rw [tab]
      omega

/-- Outvoting is transitive, as an order of votes, width and filler. -/
theorem outvotes_trans (h : outvotes a b = true) (h' : outvotes b c = true) :
    outvotes a c = true := by
  rw [outvotes_iff] at *
  omega

theorem outvotes_asymm (h : outvotes a b = true) : outvotes b a = false := by
  rw [Bool.eq_false_iff]
  intro h'
  rw [outvotes_iff] at *
  omega

/-- **Of two units one outvotes the other**, whatever votes they have. -/
theorem outvotes_total (ne : a.1 ≠ b.1) : outvotes a b = true ∨ outvotes b a = true := by
  rw [outvotes_iff, outvotes_iff]
  by_contra tie
  have width : a.1.width = b.1.width := by omega
  have rank : fillerRank a.1.filler = fillerRank b.1.filler := by omega
  exact ne (unit_eq (fillerRank_inj rank) width)

end

/-- **A choice between two entries** that is for the one that outvotes the other. -/
structure Fair (pick : Entry → Entry → Entry) : Prop where
  first : ∀ {a b}, outvotes a b = true → pick a b = a
  second : ∀ {a b}, outvotes b a = true → pick a b = b

/-- The entry that is left when each in turn is compared with the best one before it. -/
def best (pick : Entry → Entry → Entry) : List Entry → Option Entry
  | [] => none
  | a :: entries => some (entries.foldl pick a)

/-- The later of two entries, unless the first outvotes it. -/
def laterOf (a b : Entry) : Entry := if outvotes a b then a else b

/-- The first of two entries, unless the later one outvotes it. -/
def firstOf (a b : Entry) : Entry := if outvotes b a then b else a

theorem fair_laterOf : Fair laterOf where
  first h := if_pos h
  second h := if_neg (by simp [outvotes_asymm h])

theorem fair_firstOf : Fair firstOf where
  first h := if_neg (by simp [outvotes_asymm h])
  second h := if_pos h

/-- **The entry that outvotes all others** of a list. -/
structure Leads (a : Entry) (entries : List Entry) : Prop where
  mem : a ∈ entries
  rest : ∀ b ∈ entries, b ≠ a → outvotes a b = true

section

variable {pick : Entry → Entry → Entry} {a b x y : Entry} {entries entries' : List Entry}

theorem Leads.perm (h : Leads a entries) (perm : entries.Perm entries') : Leads a entries' where
  mem := perm.mem_iff.1 h.mem
  rest b mem := h.rest b (perm.mem_iff.2 mem)

/-- An entry that one of the others outvotes changes nothing. -/
theorem Leads.cons (h : Leads a entries) (mem : x ∈ entries) (wins : outvotes x y = true) :
    Leads a (y :: entries) where
  mem := List.mem_cons_of_mem _ h.mem
  rest b here ne := by
    rcases List.mem_cons.1 here with rfl | here
    · by_cases same : x = a
      · rwa [← same]
      · exact outvotes_trans (h.rest x mem same) wins
    · exact h.rest b here ne

/-- No two entries outvote all others. -/
theorem Leads.unique (h : Leads a entries) (h' : Leads b entries) : a = b := by
  by_contra ne
  have lost := outvotes_asymm (h.rest b h'.mem (Ne.symm ne))
  rw [h'.rest a h.mem ne] at lost
  cases lost

/-- **What is left outvotes the rest**, when the units are different.  By induction on the entries
    that are still to be compared: the one that is dropped is outvoted by the one that is kept. -/
theorem Fair.leads_foldl (fair : Fair pick) (distinct : ((a :: entries).map (·.1)).Nodup) :
    Leads (entries.foldl pick a) (a :: entries) := by
  induction entries generalizing a with
  | nil =>
    refine ⟨List.mem_singleton_self _, fun b mem ne => ?_⟩
    exact absurd (List.mem_singleton.1 mem) ne
  | cons b entries ih =>
    rw [List.map_cons, List.map_cons, List.nodup_cons, List.nodup_cons, List.mem_cons, not_or] at distinct
    obtain ⟨⟨ne, unseen⟩, unseen', distinct⟩ := distinct
    rw [List.foldl_cons]
    -- the units are different, so that one of the two is outvoted, and it is the one that goes
    rcases outvotes_total ne with wins | wins
    · rw [fair.first wins]
      have leads := ih (a := a) (List.nodup_cons.2 ⟨unseen, distinct⟩)
      exact (leads.cons List.mem_cons_self wins).perm (.swap a b entries)
    · rw [fair.second wins]
      have leads := ih (a := b) (List.nodup_cons.2 ⟨unseen', distinct⟩)
      exact leads.cons List.mem_cons_self wins

/-- **The best entry** is the one that outvotes all others, whichever comes first. -/
theorem Fair.best_eq_some_iff (fair : Fair pick) (distinct : (entries.map (·.1)).Nodup) :
    best pick entries = some a ↔ Leads a entries := by
  cases entries with
  | nil =>
    constructor
    · intro h
      cases h
    · intro h
      cases h.mem
  | cons b entries =>
    have leads := fair.leads_foldl distinct
    rw [best, Option.some.injEq]
    constructor
    · rintro rfl
      exact leads
    · exact leads.unique

end

/-! ## The unit of a document -/

/-- The units that have votes, each with their number. -/
def tally (votes : List IndentUnit) : List Entry := votes.eraseDups.map fun u => (u, votes.count u)

/-- Without repetitions each unit is listed once. -/
theorem nodup_eraseDups (votes : List IndentUnit) : votes.eraseDups.Nodup := by
  induction h : votes.length using Nat.strong_induction_on generalizing votes with
  | _ n ih =>
    cases votes with
    | nil => exact List.nodup_nil
    | cons u votes =>
      rw [List.eraseDups_cons, List.nodup_cons]
      refine ⟨fun mem => ?_, ih _ ?_ _ rfl⟩
      · simpa using (List.mem_filter.1 (List.mem_eraseDups.1 mem)).2
      · rw [← h]
        exact Nat.lt_succ_of_le (List.length_filter_le ..)

/-- The program keeps the best entry as an option, which is there from the first entry on. -/
theorem foldl_firstOf (entries : List Entry) (a : Entry) :
    entries.foldl (fun best u =>
      match best with
      | none => some u
      | some b => if outvotes u b then some u else some b) (some a)
      = some (entries.foldl firstOf a) := by
  induction entries generalizing a with
  | nil => rfl
  | cons b entries ih =>
    rw [List.foldl_cons, List.foldl_cons, ← ih, firstOf]
    by_cases wins : outvotes b a = true
    · simp only [if_pos wins]
    · simp only [if_neg wins]

/-- The winner of the votes is the best of their tally. -/
theorem winner_eq (votes : List IndentUnit) :
    winner votes = (best firstOf (tally votes)).map (·.1) := by
  rw [winner, ← tally]
  cases tally votes with
  | nil => rfl
  | cons a entries => exact congrArg _ (foldl_firstOf entries a)

/-- **The counts of a document**, in any order: each unit that a step is taken in, with the number of
    these steps. -/
structure Counts (text : Text) (root : Element) (entries : List Entry) : Prop where
  distinct : (entries.map (·.1)).Nodup
  mem_iff : ∀ u n, (u, n) ∈ entries ↔ 0 < u.width ∧ 0 < n ∧ stepCount text root u = n

theorem Counts.perm {text : Text} {root : Element} {entries entries' : List Entry}
    (h : Counts text root entries) (perm : entries.Perm entries') : Counts text root entries' where
  distinct := (perm.map _).nodup h.distinct
  mem_iff u n := perm.mem_iff.symm.trans (h.mem_iff u n)

/-- **The unit that prevails in a document**: that more steps are taken in than in any other, or as many
    as in others that are wider, or, where one is as wide, a tab. -/
structure Prevails (text : Text) (root : Element) (u : IndentUnit) : Prop where
  width : 0 < u.width
  counted : 0 < stepCount text root u
  most : ∀ v : IndentUnit, 0 < v.width → v ≠ u →
    stepCount text root v < stepCount text root u ∨
      stepCount text root v = stepCount text root u ∧
        (u.width < v.width ∨ u.width = v.width ∧ u.filler = .tab)

section

variable {text : Text} {d : Document} {u v : IndentUnit} {entries : List Entry}
  {pick : Entry → Entry → Entry}

/-- The order of two different units, where a tie in width is broken by the tab. -/
theorem outvotes_iff_of_ne (ne : v ≠ u) {n m : Nat} : outvotes (u, n) (v, m) = true ↔
    m < n ∨ m = n ∧ (u.width < v.width ∨ u.width = v.width ∧ u.filler = .tab) := by
  rw [outvotes_iff]
  refine or_congr Iff.rfl (and_congr_right fun _ => or_congr Iff.rfl (and_congr_right fun same => ?_))
  exact fillerRank_lt_iff fun equal => ne (unit_eq equal same).symm

/-- The unit that prevails is the one whose entry outvotes all others.  A unit without steps is
    not listed, and has fewer than any that is. -/
theorem Counts.leads_iff (counts : Counts text d.root entries) :
    (∃ n, Leads (u, n) entries) ↔ Prevails text d.root u := by
  constructor
  · rintro ⟨n, leads⟩
    obtain ⟨width, pos, rfl⟩ := (counts.mem_iff u n).1 leads.mem
    refine ⟨width, pos, fun v width' ne => ?_⟩
    rcases Nat.eq_zero_or_pos (stepCount text d.root v) with none | pos'
    · rw [none]
      exact .inl pos
    · have listed := (counts.mem_iff v _).2 ⟨width', pos', rfl⟩
      exact (outvotes_iff_of_ne ne).1 (leads.rest _ listed fun same => ne (congrArg (·.1) same))
  · intro h
    refine ⟨_, (counts.mem_iff u _).2 ⟨h.width, h.counted, rfl⟩, ?_⟩
    rintro ⟨v, m⟩ mem ne
    obtain ⟨width, -, rfl⟩ := (counts.mem_iff v m).1 mem
    have ne' : v ≠ u := by
      rintro rfl
      exact ne rfl
    exact (outvotes_iff_of_ne ne').2 (h.most v width ne')

/-- A fair choice among the counts is for the unit that prevails. -/
theorem Counts.best_eq_some_iff (counts : Counts text d.root entries) (fair : Fair pick) :
    (best pick entries).map (·.1) = some u ↔ Prevails text d.root u := by
  rw [← counts.leads_iff, Option.map_eq_some_iff]
  constructor
  · rintro ⟨⟨v, n⟩, found, rfl⟩
    exact ⟨n, (fair.best_eq_some_iff counts.distinct).1 found⟩
  · rintro ⟨n, leads⟩
    exact ⟨(u, n), (fair.best_eq_some_iff counts.distinct).2 leads, rfl⟩

/-- **The votes of a document, counted**, are its counts. -/
theorem counts_tally (one : AtMostOneMark text) (parsed : Document.parse text = .ok d) :
    Counts text d.root (tally (documentVotes d)) where
  distinct := by
    rw [tally, List.map_map]
    exact (nodup_eraseDups _).map fun _ _ same => same
  mem_iff u n := by
    rw [tally, List.mem_map]
    constructor
    · -- a unit is listed when it has votes, and its number is how many
      rintro ⟨v, mem, same⟩
      cases same
      obtain ⟨width, pos⟩ := (mem_documentVotes_iff one parsed).1 (List.mem_eraseDups.1 mem)
      rw [count_documentVotes one parsed width]
      exact ⟨width, pos, rfl⟩
    · rintro ⟨width, pos, rfl⟩
      refine ⟨u, List.mem_eraseDups.2 ((mem_documentVotes_iff one parsed).2 ⟨width, pos⟩), ?_⟩
      rw [count_documentVotes one parsed width]

/-- **The unit of a document** is the one that prevails in it.  There is none when no step is taken; and
    it is found whatever the order in which the counts are gone through, keeping the later of two entries
    unless the first outvotes it. -/
theorem inferUnit_majority (one : AtMostOneMark text) (parsed : Document.parse text = .ok d) :
    (inferUnit d = none ↔ ∀ v, 0 < v.width → stepCount text d.root v = 0) ∧
      (∀ u, inferUnit d = some u ↔ Prevails text d.root u) ∧
      ∀ entries, Counts text d.root entries → (best laterOf entries).map (·.1) = inferUnit d := by
  have counts := counts_tally one parsed
  have found : inferUnit d = (best firstOf (tally (documentVotes d))).map (·.1) := winner_eq _
  have prevails (u : IndentUnit) : inferUnit d = some u ↔ Prevails text d.root u := by
    rw [found]
    exact counts.best_eq_some_iff fair_firstOf
  refine ⟨?_, prevails, fun entries listed => ?_⟩
  · constructor
    · intro none v width
      by_contra some_step
      -- a unit with steps would be listed, and then something would be left
      have listed := (counts.mem_iff v _).2 ⟨width, Nat.pos_of_ne_zero some_step, rfl⟩
      rw [found, Option.map_eq_none_iff] at none
      cases entries : tally (documentVotes d) with
      | nil =>
        rw [entries] at listed
        cases listed
      | cons a rest =>
        rw [entries] at none
        cases none
    · intro nothing
      rw [Option.eq_none_iff_forall_ne_some]
      intro u some_unit
      have h := (prevails u).1 some_unit
      exact absurd (nothing u h.width) (Nat.ne_of_gt h.counted)
  · refine Option.ext fun u => ?_
    rw [prevails]
    exact listed.best_eq_some_iff fair_laterOf

end

namespace Tied

/-- A child behind a tab and one behind a space. -/
def text : Text := "<a>\n\t<b/>\n <c/>\n</a>".toList

/-- The root element. -/
def root : Element :=
  ⟨⟨['a'], [], some ⟨some ⟨1, 1⟩, ⟨⟨0, 3⟩, "<a>".toList⟩, some ⟨⟨16, 20⟩, "</a>".toList⟩⟩, false, false⟩,
    [.text "\n\t".toList,
      .element ⟨['b'], [], some ⟨some ⟨2, 2⟩, ⟨⟨5, 9⟩, "<b/>".toList⟩, none⟩, false, false⟩ [],
      .text "\n ".toList,
      .element ⟨['c'], [], some ⟨some ⟨3, 2⟩, ⟨⟨11, 15⟩, "<c/>".toList⟩, none⟩, false, false⟩ [],
      .text "\n".toList]⟩

/-- What the text is read as. -/
def document : Document := ⟨Source.ofText text, [], root, []⟩

theorem parse_text : Document.parse text = .ok document := by with_unfolding_all rfl

theorem tally_document : tally (documentVotes document) = [(⟨.tab, 1⟩, 1), (⟨.space, 1⟩, 1)] := by rfl

end Tied

/-- Of a tab and a space with one vote each the tab prevails, though the space is counted first. -/
theorem inferUnit_majority_tied :
    AtMostOneMark Tied.text ∧ Document.parse Tied.text = .ok Tied.document ∧
      Counts Tied.text Tied.root [(⟨.space, 1⟩, 1), (⟨.tab, 1⟩, 1)] ∧
      Prevails Tied.text Tied.root ⟨.tab, 1⟩ ∧ inferUnit Tied.document = some ⟨.tab, 1⟩ := by
  have one : AtMostOneMark Tied.text := by decide
  have counts : Counts Tied.text Tied.root [(⟨.space, 1⟩, 1), (⟨.tab, 1⟩, 1)] := by
    refine (counts_tally one Tied.parse_text).perm ?_
    rw [Tied.tally_document]
    exact .swap _ _ _
  obtain ⟨-, prevails, any⟩ := inferUnit_majority one Tied.parse_text
  have found : inferUnit Tied.document = some ⟨.tab, 1⟩ := by
    rw [← any _ counts]
    rfl
  exact ⟨one, Tied.parse_text, counts, (prevails _).1 found, found⟩

end XmlGraft.Layout
