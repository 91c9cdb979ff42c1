/-
Bytes read as text in UTF-8. Only the encoding of a string is read, so overlong
forms, surrogates and cut sequences are no text.
-/

namespace Docbase.Text

/-- The string whose encoding these bytes are, if there is one. -/
def ofUtf8? (bytes : List UInt8) : Option String := String.fromUTF8? ⟨bytes.toArray⟩

theorem ofUtf8?_eq_some_iff {bytes : List UInt8} {s : String} :
    ofUtf8? bytes = some s ↔ bytes = s.toUTF8.data.toList := by
  unfold ofUtf8? String.fromUTF8?
  constructor
  · intro h
    split at h
    · cases h
      rfl
    · cases h
  · rintro rfl
    exact dif_pos s.isValidUTF8

end Docbase.Text
