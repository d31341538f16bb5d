/-
  Prepared — a change worked out in the tree, before it is grafted.

  Every change of a document does two things.  It changes the tree, which asks for neither settings
  nor markers, and then it grafts what changed into the text.  Splitting it there shows what two
  runs of the same change have in common: all of the first half, so that they can differ in their
  markers only.

  1. **Two halves** (`update_eq_finish`, `apply_eq_finish`): a change is what it prepares, finished.
     This is an equation between monadic programs, so errors of the first half are covered as well.

  2. **What is said** (`changed_of_finish`): a report says that the text changed when it is another
     text.  So nothing is stored exactly when nothing would change.

  3. **Markers** (`finish_congr`): two supplies of markers that serve come to the same, be it a text
     or a failure.  Texts are the same because markers leave no trace (`graft_of_served`).  Failures
     are the same because all but one of them are settled before a marker is drawn (`error_cases`),
     and that one is the same for all supplies.

  A program in steps that succeeded is taken apart by `exists_of_bind`, one step at a time.
-/
import XmlGraft.Graft.Maven
import XmlGraft.Proofs.Graft.Supplies
import XmlGraft.Proofs.Graft.Twice

namespace XmlGraft

open Markup

/-! ## Two halves -/

/-- **A prepared change**: a document with the change in its tree, where that is, and what was created. -/
structure Prepared where
  document : Document
  target : Address
  created : List Text

namespace Prepared

/-- The change grafted into the text of its document. -/
def finish (p : Prepared) (settings : Settings) (markers : Nat → Text) : Except Failure Updated :=
  finishUpdate p.document p.target p.created settings markers

/-- Fields written into the element at the end of a route. -/
def ofRoute (route : Route) (fields : Fields) (text : Text) : Except Failure Prepared := do
  let d ← readDocument text
  let (root, arrival) ← asFailure (Route.findOrCreate d.root .root route)
  let (root, _) ← asFailure (writeFields root arrival.address fields)
  return ⟨{ d with root }, arrival.address, arrival.created⟩

/-- The configuration of a plugin. -/
def ofPlugin (u : Maven.PluginUpdate) (text : Text) : Except Failure Prepared := do
  let d ← readDocument text
  let reached ← asFailure (u.changeTree d.root)
  return ⟨{ d with root := reached.root }, reached.address, reached.created⟩

end Prepared

/-- **An update is a preparation and a graft**: first the tree is changed, then the text.  Markers
    come in with the second part only. -/
theorem update_eq_finish (text : Text) (route : Route) (fields : Fields) (settings : Settings)
    (markers : Nat → Text) :
    update text route fields settings markers
      = Prepared.ofRoute route fields text >>= fun p => p.finish settings markers := by
  rw [update, Prepared.ofRoute]
  simp only [bind_assoc, pure_bind]
  rfl

theorem Maven.PluginUpdate.apply_eq_finish (u : Maven.PluginUpdate) (text : Text) (settings : Settings)
    (markers : Nat → Text) :
    u.apply text settings markers
      = Prepared.ofPlugin u text >>= fun p => p.finish settings markers := by
  rw [apply, Prepared.ofPlugin]
  simp only [bind_assoc, pure_bind]
  rfl

/-- A document keeps the text that it was read from. -/
theorem Markup.Document.source_of_parse {text : Text} {d : Document}
    (parsed : Document.parse text = .ok d) : d.source.text = text := by
  rw [Document.parse] at parsed
  simp only [bind, Except.bind] at parsed
  split at parsed
  · cases parsed
  · split at parsed
    · cases parsed
    · split at parsed
      · cases parsed
      · cases parsed
        rfl

theorem exists_of_bind {ε α β : Type} {x : Except ε α} {f : α → Except ε β} {b : β}
    (h : x >>= f = .ok b) : ∃ a, x = .ok a ∧ f a = .ok b := by
  cases x with
  | error => cases h
  | ok a => exact ⟨a, rfl, h⟩

/-- What is read for an update is what parsing gives; only the failure has another form. -/
theorem parse_of_readDocument {text : Text} {d : Document} (read : readDocument text = .ok d) :
    Document.parse text = .ok d := by
  rw [readDocument] at read
  split at read
  · next parsed =>
    cases read
    exact parsed
  · cases read

/-- Fields that are written do not change the text in the document; this is left to the graft. -/
theorem Prepared.source_ofRoute {route : Route} {fields : Fields} {text : Text} {p : Prepared}
    (h : ofRoute route fields text = .ok p) : p.document.source.text = text := by
  obtain ⟨d, read, h⟩ := exists_of_bind h
  obtain ⟨found, -, h⟩ := exists_of_bind h
  obtain ⟨written, -, h⟩ := exists_of_bind h
  cases h
  have same := Document.source_of_parse (parse_of_readDocument read)
  exact same

theorem Prepared.source_ofPlugin {u : Maven.PluginUpdate} {text : Text} {p : Prepared}
    (h : ofPlugin u text = .ok p) : p.document.source.text = text := by
  obtain ⟨d, read, h⟩ := exists_of_bind h
  obtain ⟨reached, -, h⟩ := exists_of_bind h
  cases h
  have same := Document.source_of_parse (parse_of_readDocument read)
  exact same

/-! ## What is said -/

/-- **The report says whether the text is another one**, and it compares the whole text for this;
    a graft whose result happens to be the source counts as no change. -/
theorem Prepared.changed_of_finish {p : Prepared} {settings : Settings} {markers : Nat → Text}
    {u : Updated} (h : p.finish settings markers = .ok u) :
    u.report.changed = (u.text != p.document.source.text) := by
  rw [finish, finishUpdate] at h
  split at h
  · cases h
  · next g done =>
    cases h
    obtain ⟨_, _, _, _, _, _, _, -, -, -, -, -, outcome⟩ := Graft.exists_of_graft done
    rcases outcome with ⟨-, rfl⟩ | ⟨-, _, _, -, rfl⟩
    · rfl
    · rfl

/-! ## Markers -/

namespace Graft

variable {d : Document} {target : Address} {markers markers' : Nat → Text} {s : Settings}

/-- A graft that succeeds with some markers succeeds with others that serve, and gives the same. -/
theorem graft_of_served {g : Grafted} (done : graft d target s markers = .ok g)
    (told : Told d target markers) (served : Served d target markers') :
    graft d target s markers' = .ok g := by
  obtain ⟨unit, p, front, element, back, parent, anchor, valid, site, found, children, located,
    outcome⟩ := exists_of_graft done
  have again : ∃ g', graft d target s markers' = .ok g' := by
    -- a pristine element needs no marker; for another one there is a good one
    rcases outcome with ⟨pristine, -⟩ | ⟨changed, -⟩
    · refine ⟨⟨d.written, d.written != d.source.text, none, none⟩, ?_⟩
      rw [graft, graftCounted, valid]
      simp only [site]
      rw [atSite_eq found children located, if_pos pristine]
    · obtain ⟨g', done', -⟩ := exists_graft valid site found children located changed served
      exact ⟨g', done'⟩
  obtain ⟨g', done'⟩ := again
  have same := (outcome?_of_graft done told).symm.trans (outcome?_of_graft done' served.unmistakable.told)
  rw [done', Option.some.inj same]

/-- Putting lines in the place of an element fails only for want of a marker. -/
theorem place_error {S : Surroundings} {site : Site} {parent element : Element} {anchor : Position}
    {lines : List Text} {fault : GraftFault}
    (failed : (place d S markers site parent element anchor lines).1 = .error fault) :
    fault = .noMarker maxAttempts := by
  simp only [place] at failed
  split at failed
  · cases failed
  · exact (Except.error.inj failed).symm

/-- The lines of an element are put in its place, unless that fails whatever the markers. -/
theorem replace_error_cases {unit : IndentUnit} {site : Site} {anchor : Position} {fault : GraftFault}
    (failed : (replace d s unit markers site anchor).1 = .error fault) :
    (∀ others, (replace d s unit others site anchor).1 = .error fault) ∨
      fault = .noMarker maxAttempts := by
  unfold replace at failed ⊢
  cases parent_at : d.root.at? site.parent with
  | none =>
    simp only [parent_at] at failed
    exact .inl fun _ => failed
  | some parent =>
    simp only [parent_at] at failed ⊢
    cases child : parent.childAt? site.index with
    | none =>
      simp only [child] at failed
      exact .inl fun _ => failed
    | some element =>
      simp only [child] at failed ⊢
      split at failed
      · exact .inl fun _ => failed
      · exact .inr (place_error failed)

/-- An element at a site is grafted, unless that fails whatever the markers. -/
theorem atSite_error_cases {unit : IndentUnit} {site : Site} {fault : GraftFault}
    (failed : (atSite d s unit markers site).1 = .error fault) :
    (∀ others, (atSite d s unit others site).1 = .error fault) ∨ fault = .noMarker maxAttempts := by
  unfold atSite at failed ⊢
  cases there : d.root.at? site.address with
  | none =>
    simp only [there] at failed
    exact .inl fun _ => failed
  | some element =>
    simp only [there] at failed ⊢
    cases above : (d.root.at? site.parent).bind (·.position?) with
    | none =>
      simp only [above] at failed
      exact .inl fun _ => failed
    | some anchor =>
      simp only [above] at failed ⊢
      split at failed
      · cases failed
      · next changed =>
        simp only [if_neg changed]
        exact replace_error_cases failed

/-- **A graft that fails** fails whatever the markers, or for want of a good one.  The site, the
    unit and the anchor are looked at before the first marker is drawn. -/
theorem error_cases {fault : GraftFault} (failed : graft d target s markers = .error fault) :
    (∀ others, graft d target s others = .error fault) ∨ fault = .noMarker maxAttempts := by
  unfold graft graftCounted at failed ⊢
  cases valid : s.unit with
  | error unfit =>
    simp only [valid] at failed
    exact .inl fun _ => failed
  | ok unit =>
    simp only [valid] at failed
    cases found : site? d.root target with
    | error lost =>
      simp only [found] at failed
      exact .inl fun _ => failed
    | ok site =>
      simp only [found] at failed
      exact atSite_error_cases failed

/-- **Two grafts that both fail** fail alike, whatever their markers.  One that fails for another
    reason than the markers would have made the other one fail for it. -/
theorem error_congr {fault fault' : GraftFault} (failed : graft d target s markers = .error fault)
    (failed' : graft d target s markers' = .error fault') : fault = fault' := by
  rcases error_cases failed with always | rfl
  · exact Except.error.inj ((always markers').symm.trans failed')
  · rcases error_cases failed' with always | rfl
    · exact Except.error.inj (failed.symm.trans (always markers))
    · rfl

end Graft

/-- **Two supplies that serve** come to the same, in success and in failure.  So a preview that
    draws markers of its own shows what the real run will write. -/
theorem Prepared.finish_congr {p : Prepared} {markers markers' : Nat → Text}
    (served : Graft.Served p.document p.target markers)
    (served' : Graft.Served p.document p.target markers') (settings : Settings) :
    p.finish settings markers = p.finish settings markers' := by
  have same : graft p.document p.target settings markers = graft p.document p.target settings markers' := by
    cases done : graft p.document p.target settings markers with
    | ok g => exact (Graft.graft_of_served done served.unmistakable.told served').symm
    | error fault =>
      cases done' : graft p.document p.target settings markers' with
      -- the second succeeds, so the first does, against what was supposed
      | ok g' =>
        rw [Graft.graft_of_served done' served'.unmistakable.told served] at done
        cases done
      | error fault' => rw [Graft.error_congr done done']
  rw [finish, finish, finishUpdate, finishUpdate, same]

end XmlGraft
