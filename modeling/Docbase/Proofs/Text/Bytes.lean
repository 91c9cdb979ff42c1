/-
Texts as their bytes in UTF-8, and positions in them.

A slice is taken between two byte positions, and only if both stand between
characters. `slice?_utf8`: the bytes of the middle of a text are a slice, and it
reads as that middle. `codes` are the bytes seen as the characters of their codes,
which is how bytes are tested for ASCII classes: an ASCII text is the start of
the codes of a text iff it is the start of the text (`codes_append`,
`exists_append_of_codes`).
-/
import Docbase.Text.Utf8

namespace Docbase.Text

/-- The bytes of a text. -/
def utf8 (cs : List Char) : List UInt8 := cs.flatMap String.utf8EncodeChar

/-- Whether a position stands between characters: before the first byte of one, or at the end. -/
def isBoundary (bytes : List UInt8) (pos : Nat) : Bool :=
  match bytes[pos]? with
  | none => pos = bytes.length
  | some b => b.IsUTF8FirstByte

/-- The text between two positions; there is none unless both stand between characters. -/
def slice? (bytes : List UInt8) (start stop : Nat) : Option (List Char) :=
  if start ≤ stop && isBoundary bytes start && isBoundary bytes stop then
    (ofUtf8? ((bytes.drop start).take (stop - start))).map String.toList
  else none

/-- The bytes from a position on, each as the character of its code. -/
def codesFrom (bytes : List UInt8) (pos : Nat) : List Char := (bytes.drop pos).map Char.ofUInt8

/-- The codes of the bytes of a text. -/
def codes (cs : List Char) : List Char := (utf8 cs).map Char.ofUInt8

theorem utf8_append (cs ds : List Char) : utf8 (cs ++ ds) = utf8 cs ++ utf8 ds := by simp [utf8]

theorem utf8_toList (s : String) : s.toUTF8.data.toList = utf8 s.toList := by
  conv => lhs; rw [← String.ofList_toList (s := s)]
  rw [String.toUTF8_eq_toByteArray, String.toByteArray_ofList, List.utf8Encode,
    List.toList_data_toByteArray, utf8]

theorem ofUtf8?_utf8 (cs : List Char) : ofUtf8? (utf8 cs) = some (String.ofList cs) := by
  rw [ofUtf8?_eq_some_iff, utf8_toList, String.toList_ofList]

/-- The first byte of a character is that character if it is ASCII, else no ASCII character. -/
theorem encodeChar_cases (c : Char) :
    (c.toNat < 128 ∧ ∃ b, String.utf8EncodeChar c = [b] ∧ Char.ofUInt8 b = c) ∨
      (128 ≤ c.toNat ∧ ∃ b more, String.utf8EncodeChar c = b :: more ∧
        128 ≤ (Char.ofUInt8 b).toNat) := by
  have toNat_ofUInt8 (b : UInt8) : (Char.ofUInt8 b).toNat = b.toNat := UInt8.toNat_toUInt32 b
  have hval : c.toNat = c.val.toNat := rfl
  have hvalid := c.valid
  simp only [UInt32.isValidChar, Nat.isValidChar] at hvalid
  simp only [String.utf8EncodeChar]
  split
  · next h =>
    refine .inl ⟨by omega, _, rfl, ?_⟩
    apply Char.toNat_inj.1
    rw [toNat_ofUInt8, hval, UInt8.toNat_ofNat']
    omega
  · refine .inr ⟨by omega, ?_⟩
    split
    · refine ⟨_, _, rfl, ?_⟩
      simp [toNat_ofUInt8]
      omega
    · split
      · refine ⟨_, _, rfl, ?_⟩
        simp [toNat_ofUInt8]
        omega
      · refine ⟨_, _, rfl, ?_⟩
        simp [toNat_ofUInt8]
        omega

/-! ## Positions between characters -/

theorem utf8_cons (c : Char) (cs : List Char) : utf8 (c :: cs) = String.utf8EncodeChar c ++ utf8 cs := by
  simp [utf8]

theorem utf8_eq_nil_iff {cs : List Char} : utf8 cs = [] ↔ cs = [] := by
  cases cs with
  | nil => simp [utf8]
  | cons c cs => simp [utf8_cons, String.utf8EncodeChar_ne_nil]

theorem getElem?_utf8 (before cs : List Char) :
    (utf8 (before ++ cs))[(utf8 before).length]? = (utf8 cs).head? := by
  rw [utf8_append, List.getElem?_append_right (Nat.le_refl _), Nat.sub_self, List.head?_eq_getElem?]

theorem drop_utf8 (before cs : List Char) :
    (utf8 (before ++ cs)).drop (utf8 before).length = utf8 cs := by
  rw [utf8_append, List.drop_left]

theorem codesFrom_utf8 (before cs : List Char) :
    codesFrom (utf8 (before ++ cs)) (utf8 before).length = codes cs := by
  rw [codesFrom, drop_utf8, codes]

theorem isBoundary_utf8 (before cs : List Char) :
    isBoundary (utf8 (before ++ cs)) (utf8 before).length = true := by
  rw [isBoundary, getElem?_utf8]
  cases cs with
  | nil => simp [utf8]
  | cons c cs =>
    have hfirst := UInt8.isUTF8FirstByte_getElem_zero_utf8EncodeChar (c := c)
    cases henc : String.utf8EncodeChar c with
    | nil => exact absurd henc String.utf8EncodeChar_ne_nil
    | cons b more =>
      simp only [henc, List.getElem_cons_zero] at hfirst
      simp [utf8_cons, henc, hfirst]

/-- **A slice whose ends stand between characters reads as the characters between them.** -/
theorem slice?_utf8 (before cs after : List Char) :
    slice? (utf8 (before ++ cs ++ after)) (utf8 before).length (utf8 (before ++ cs)).length =
      some cs := by
  have hstart : isBoundary (utf8 (before ++ cs ++ after)) (utf8 before).length = true := by
    rw [List.append_assoc]
    exact isBoundary_utf8 before (cs ++ after)
  have hstop := isBoundary_utf8 (before ++ cs) after
  have hlen : (utf8 (before ++ cs)).length - (utf8 before).length = (utf8 cs).length := by
    simp [utf8_append]
  have hle : (utf8 before).length ≤ (utf8 (before ++ cs)).length := by simp [utf8_append]
  have hbytes : ((utf8 (before ++ cs ++ after)).drop (utf8 before).length).take (utf8 cs).length =
      utf8 cs := by
    rw [List.append_assoc, drop_utf8, utf8_append, List.take_left]
  rw [slice?, hstart, hstop, hlen, hbytes, ofUtf8?_utf8]
  simp [hle]

/-! ## ASCII -/

theorem length_utf8 {cs : List Char} (h : ∀ c ∈ cs, c.toNat < 128) : (utf8 cs).length = cs.length := by
  induction cs with
  | nil => rfl
  | cons c cs ih =>
    rcases encodeChar_cases c with ⟨_, b, henc, _⟩ | ⟨hc, _⟩
    · simp [utf8_cons, henc, ih fun x hx => h x (by simp [hx])]
    · have := h c (by simp)
      omega

theorem codes_append {cs : List Char} (h : ∀ c ∈ cs, c.toNat < 128) (rest : List Char) :
    codes (cs ++ rest) = cs ++ codes rest := by
  induction cs with
  | nil => rfl
  | cons c cs ih =>
    rcases encodeChar_cases c with ⟨_, b, henc, hb⟩ | ⟨hc, _⟩
    · have ih := ih fun x hx => h x (by simp [hx])
      simp only [codes] at ih
      simp [codes, utf8_cons, henc, hb, ih]
    · have := h c (by simp)
      omega

/-- An ASCII text with which the codes of a text start is what the text starts with. -/
theorem exists_append_of_codes {cs : List Char} (h : ∀ c ∈ cs, c.toNat < 128) :
    ∀ {ds more : List Char}, codes ds = cs ++ more → ∃ rest, ds = cs ++ rest ∧ more = codes rest := by
  induction cs with
  | nil => exact fun {ds more} heq => ⟨ds, rfl, heq.symm⟩
  | cons c cs ih =>
    intro ds more heq
    cases ds with
    | nil => simp [codes, utf8] at heq
    | cons d ds =>
      rcases encodeChar_cases d with ⟨_, b, henc, hb⟩ | ⟨_, b, tail, henc, hb⟩
      · simp only [codes, utf8_cons, henc, hb, List.map_cons, List.cons_append,
          List.cons.injEq] at heq
        obtain ⟨rfl, heq⟩ := heq
        obtain ⟨rest, rfl, hrest⟩ := ih (fun x hx => h x (by simp [hx])) heq
        exact ⟨rest, rfl, hrest⟩
      · simp only [codes, utf8_cons, henc, List.cons_append, List.map_cons, List.cons.injEq] at heq
        have := h c (by simp)
        have := heq.1 ▸ hb
        omega

theorem codes_eq_nil_iff {cs : List Char} : codes cs = [] ↔ cs = [] := by
  rw [codes, List.map_eq_nil_iff, utf8_eq_nil_iff]

end Docbase.Text
