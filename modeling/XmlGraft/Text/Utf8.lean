/-
  Utf8 — texts as the bytes that files hold.
-/
import XmlGraft.Text.Basic

namespace XmlGraft.Text

/-- **The bytes of a text.** -/
def utf8 (t : Text) : ByteArray := (String.ofList t).toUTF8

/-- **The text that bytes are**, if they are UTF-8. -/
def ofUtf8? (bytes : ByteArray) : Option Text := (String.fromUTF8? bytes).map String.toList

/-- The bytes of a text are read back as the text. -/
@[simp] theorem ofUtf8?_utf8 (t : Text) : ofUtf8? (utf8 t) = some t := by
  have valid : (String.ofList t).toUTF8.IsValidUTF8 := (String.ofList t).isValidUTF8
  have back : String.fromUTF8? (String.ofList t).toUTF8 = some (String.ofList t) := by
    unfold String.fromUTF8?
    rw [dif_pos valid]
    rfl
  simp only [ofUtf8?, utf8, back, Option.map_some, String.toList_ofList]

end XmlGraft.Text
