/-
The scanner as a cursor on the bytes of a query: it passes over bytes by their
ASCII class, without decoding, and cuts keys and values out as slices between
two positions. A slice at a position inside a character would be torn, which is
an outcome of its own here.

`Cursor.scan_eq`: the cursor never tears a character, and it reads the terms that
`scan?` reads. With `scan?_eq_some_iff` it follows that the query language is
exactly the grammar (`query_exact`).
-/
import Docbase.Proofs.Expression.Grammar
import Docbase.Proofs.Outcome
import Docbase.Proofs.Text.Bytes

namespace Docbase.Expression

namespace Cursor

/-- Why a query has no terms. -/
inductive Fault where
  /-- The query is outside the grammar. -/
  | malformed
  /-- A slice that does not stand between characters. -/
  | torn
  deriving DecidableEq

/-- How many characters the value takes up that stands before the first character that
belongs to none; a list that is not closed, or is empty, is a fault. -/
def valueLength? : ValuePlace → List Char → Option Nat
  | .bare, [] => some 0
  | .bare, c :: rest =>
    if c = '(' then (valueLength? .opened rest).map (· + 1)
    else if isBareChar c then (valueLength? .bare rest).map (· + 1)
    else some 0
  | .opened, [] => none
  | .opened, c :: rest =>
    if isListChar c then (valueLength? .listed rest).map (· + 1) else none
  | .listed, [] => none
  | .listed, c :: rest =>
    if c = ')' then (valueLength? .bare rest).map (· + 1)
    else if isListChar c then (valueLength? .listed rest).map (· + 1)
    else none

def orMalformed {α : Type} : Option α → Except Fault α
  | some a => .ok a
  | none => .error .malformed

/-- The text between two positions. -/
def cut (bytes : List UInt8) (start stop : Nat) : Except Fault (List Char) :=
  match Text.slice? bytes start stop with
  | some cs => .ok cs
  | none => .error .torn

/-- Reads one term from a position on, without its separator, and where it stops. -/
def readTerm (bytes : List UInt8) (pos : Nat) : Except Fault (Term × Nat) :=
  let (passed, rest) := (Text.codesFrom bytes pos).span isKeyChar
  let keyStop := pos + passed.length
  if passed.isEmpty || rest.head? ≠ some '=' then .error .malformed
  else do
    let key ← cut bytes pos keyStop
    let length ← orMalformed (valueLength? .bare rest.tail)
    let value ← cut bytes (keyStop + 1) (keyStop + 1 + length)
    let (field, word, operator) ← orMalformed (Term.splitKey? key)
    .ok (⟨field, word, operator, value, none⟩, keyStop + 1 + length)

theorem lt_of_readTerm {bytes : List UInt8} {pos stop : Nat} {t : Term}
    (h : readTerm bytes pos = .ok (t, stop)) : pos < stop := by
  simp only [readTerm] at h
  split at h
  · cases h
  · simp only [bind_eq_ok_iff] at h
    obtain ⟨_, _, _, _, _, _, _, _, h⟩ := h
    cases h
    omega

/-- Reads the terms from a position on. -/
def scanFrom (bytes : List UInt8) (pos : Nat) : Except Fault (List Term) :=
  match _hread : readTerm bytes pos with
  | .error fault => .error fault
  | .ok (t, stop) =>
    match _hcodes : Text.codesFrom bytes stop with
    | [] => .ok [t]
    | symbol :: more =>
      match Connector.ofSymbol? symbol with
      | none => .error .malformed
      | some k =>
        if more.isEmpty then .error .malformed
        else (scanFrom bytes (stop + 1)).map ({ t with separator := some k } :: ·)
termination_by bytes.length - pos
decreasing_by
  have hpos := lt_of_readTerm _hread
  have hlen := congrArg List.length _hcodes
  simp only [Text.codesFrom, List.length_map, List.length_drop, List.length_cons] at hlen
  omega

/-- Reads the terms of a query. -/
def scan (query : String) : Except Fault (List Term) := scanFrom query.toUTF8.data.toList 0

/-! ## Character classes are ASCII -/

theorem isAlphanum_lt {c : Char} (h : c.isAlphanum = true) : c.toNat < 128 := by
  have := toNat_of_isAlphanum h
  omega

theorem isKeyChar_lt {c : Char} (h : isKeyChar c = true) : c.toNat < 128 := by
  simp only [isKeyChar, Bool.or_eq_true, decide_eq_true_eq] at h
  rcases h with h | rfl
  · exact isAlphanum_lt h
  · decide

theorem isBareChar_lt {c : Char} (h : isBareChar c = true) : c.toNat < 128 := by
  simp only [isBareChar, Bool.or_eq_true, decide_eq_true_eq] at h
  rcases h with ((((h | rfl) | rfl) | rfl) | rfl) | rfl
  · exact isAlphanum_lt h
  all_goals decide

theorem isListChar_lt {c : Char} (h : isListChar c = true) : c.toNat < 128 := by
  simp only [isListChar, Bool.or_eq_true, decide_eq_true_eq] at h
  rcases h with (((((((h | rfl) | rfl) | rfl) | rfl) | rfl) | rfl) | rfl) | rfl
  · exact isAlphanum_lt h
  all_goals decide

theorem value_lt {cs : List Char} (h : ValueText cs) : ∀ c ∈ cs, c.toNat < 128 :=
  h.forall_mem (fun _ => isBareChar_lt) (fun _ => isListChar_lt) (by decide) (by decide)

theorem symbol_lt (k : Connector) : ∀ c ∈ [k.symbol], c.toNat < 128 := by
  cases k <;> simp [Connector.symbol]

/-! ## The end of a value -/

theorem exists_of_valueLength? {place : ValuePlace} {cs : List Char} {n : Nat}
    (h : valueLength? place cs = some n) :
    ∃ value rest, cs = value ++ rest ∧ isValueFrom place value = true ∧ value.length = n := by
  induction cs generalizing place n with
  | nil =>
    cases place with
    | bare => cases h; exact ⟨[], [], rfl, rfl, rfl⟩
    | opened => cases h
    | listed => cases h
  | cons c cs ih =>
    -- One more character before a value that `ih` finds.
    have more {next : ValuePlace} (hstep : ∀ value, isValueFrom next value = true →
        isValueFrom place (c :: value) = true) (h : (valueLength? next cs).map (· + 1) = some n) :
        ∃ value rest, c :: cs = value ++ rest ∧ isValueFrom place value = true ∧
          value.length = n := by
      obtain ⟨m, hm, rfl⟩ := Option.map_eq_some_iff.1 h
      obtain ⟨value, rest, rfl, hvalue, rfl⟩ := ih hm
      exact ⟨c :: value, rest, rfl, hstep value hvalue, rfl⟩
    cases place with
    | bare =>
      simp only [valueLength?] at h
      split at h
      · next hc => exact more (fun value hv => by simpa [isValueFrom, hc] using hv) h
      · next hc =>
        split at h
        · next hbare => exact more (fun value hv => by simpa [isValueFrom, hc, hbare] using hv) h
        · cases h; exact ⟨[], c :: cs, rfl, rfl, rfl⟩
    | opened =>
      simp only [valueLength?] at h
      split at h
      · next hc => exact more (fun value hv => by simpa [isValueFrom, hc] using hv) h
      · cases h
    | listed =>
      simp only [valueLength?] at h
      split at h
      · next hc => exact more (fun value hv => by simpa [isValueFrom, hc] using hv) h
      · next hc =>
        split at h
        · next hl => exact more (fun value hv => by simpa [isValueFrom, hc, hl] using hv) h
        · cases h

/-- A value is passed over as a whole if what follows cannot continue it. -/
theorem valueLength?_append {place : ValuePlace} {value rest : List Char}
    (h : isValueFrom place value = true)
    (hrest : ∀ c, rest.head? = some c → c ≠ '(' ∧ isBareChar c = false) :
    valueLength? place (value ++ rest) = some value.length := by
  induction value generalizing place with
  | nil =>
    cases place with
    | bare =>
      cases rest with
      | nil => rfl
      | cons c rest =>
        obtain ⟨hparen, hbare⟩ := hrest c rfl
        simp [valueLength?, hparen, hbare]
    | opened => cases h
    | listed => cases h
  | cons c value ih =>
    cases place with
    | opened =>
      simp only [isValueFrom, Bool.and_eq_true] at h
      simp [valueLength?, h.1, ih h.2]
    | bare | listed =>
      simp only [isValueFrom] at h
      simp only [List.cons_append, valueLength?]
      split at h
      · next hc => simp [hc, ih h]
      · next hc =>
        rw [Bool.and_eq_true] at h
        simp [hc, h.1, ih h.2]

/-! ## The cursor reads the grammar -/

theorem length_append_utf8 (before : List Char) {cs : List Char} (h : ∀ c ∈ cs, c.toNat < 128) :
    (Text.utf8 before).length + cs.length = (Text.utf8 (before ++ cs)).length := by
  rw [Text.utf8_append, List.length_append, Text.length_utf8 h]

theorem cut_utf8 (before cs after : List Char) :
    cut (Text.utf8 (before ++ (cs ++ after))) (Text.utf8 before).length
      (Text.utf8 (before ++ cs)).length = .ok cs := by
  rw [cut, ← List.append_assoc, Text.slice?_utf8]

theorem key_lt {key : List Char} (h : ∀ c ∈ key, isKeyChar c = true) :
    ∀ c ∈ key ++ ['='], c.toNat < 128 := by
  intro c hc
  rcases List.mem_append.1 hc with hc | hc
  · exact isKeyChar_lt (h c hc)
  · rw [List.mem_singleton.1 hc]; decide

/-- The codes of a text that starts with key characters and `=`. -/
theorem span_codes {key : List Char} (h : ∀ c ∈ key, isKeyChar c = true) (rest : List Char) :
    (Text.codes (key ++ '=' :: rest)).span isKeyChar = (key, '=' :: Text.codes rest) := by
  have hcodes : Text.codes (key ++ '=' :: rest) = key ++ '=' :: Text.codes rest := by
    have := Text.codes_append (key_lt h) rest
    simpa using this
  rw [hcodes, List.span_eq_takeWhile_dropWhile, List.takeWhile_append_of_pos h,
    List.dropWhile_append_of_pos h]
  simp [show isKeyChar '=' = false by decide]

/-- After a key and `=`, the rest of a term is read, from the position where its value starts. -/
theorem readTerm_key (before : List Char) {key : List Char} (hne : key ≠ [])
    (hkey : ∀ c ∈ key, isKeyChar c = true) (rest : List Char) :
    readTerm (Text.utf8 (before ++ (key ++ '=' :: rest))) (Text.utf8 before).length = (do
      let valueStart := (Text.utf8 (before ++ (key ++ ['=']))).length
      let length ← orMalformed (valueLength? .bare (Text.codes rest))
      let value ← cut (Text.utf8 (before ++ (key ++ '=' :: rest))) valueStart (valueStart + length)
      let (field, word, operator) ← orMalformed (Term.splitKey? key)
      .ok (⟨field, word, operator, value, none⟩, valueStart + length)) := by
  have hkeyStop := length_append_utf8 before fun c hc => isKeyChar_lt (hkey c hc)
  have hvalueStart : (Text.utf8 (before ++ key)).length + 1 =
      (Text.utf8 (before ++ (key ++ ['=']))).length := by
    have hequals : ∀ c ∈ ['='], c.toNat < 128 := by simp
    rw [← List.append_assoc]
    exact length_append_utf8 (before ++ key) hequals
  have hcutKey := cut_utf8 before key ('=' :: rest)
  have hstart : (key.isEmpty || decide (('=' :: Text.codes rest).head? ≠ some '=')) = false := by
    simp [hne]
  simp only [readTerm, Text.codesFrom_utf8, span_codes hkey, hstart, Bool.false_eq_true, if_false,
    List.tail_cons, hkeyStop, hcutKey, hvalueStart, ok_bind]

/-- Where the value ends too, both slices stand between characters. -/
theorem readTerm_eq (before : List Char) {key value rest : List Char} (hne : key ≠ [])
    (hkey : ∀ c ∈ key, isKeyChar c = true) (hvalue : ValueText value)
    (hlength : valueLength? .bare (Text.codes (value ++ rest)) = some value.length) :
    readTerm (Text.utf8 (before ++ (key ++ '=' :: (value ++ rest)))) (Text.utf8 before).length =
      orMalformed ((Term.splitKey? key).map fun k => (⟨k.1, k.2.1, k.2.2, value, none⟩,
        (Text.utf8 (before ++ (key ++ '=' :: value))).length)) := by
  have hvalueStop := length_append_utf8 (before ++ (key ++ ['='])) (value_lt hvalue)
  have hcutValue := cut_utf8 (before ++ (key ++ ['='])) value rest
  simp only [List.append_assoc, List.singleton_append] at hvalueStop hcutValue
  rw [readTerm_key before hne hkey]
  simp only [hlength, orMalformed, ok_bind, hvalueStop, hcutValue]
  cases Term.splitKey? key with
  | none => rfl
  | some k => rfl

theorem readTerm_write (before : List Char) {t : Term} (h : t.WellFormed) {rest : List Char}
    (hrest : ∀ c, (Text.codes rest).head? = some c → c ≠ '(' ∧ isBareChar c = false) :
    readTerm (Text.utf8 (before ++ (t.write ++ rest))) (Text.utf8 before).length =
      .ok ({ t with separator := none }, (Text.utf8 (before ++ t.write)).length) := by
  have hlength : valueLength? .bare (Text.codes (t.value ++ rest)) = some t.value.length := by
    rw [Text.codes_append (value_lt h.value)]
    exact valueLength?_append h.value.isValue hrest
  have hread := readTerm_eq before (by simp [Term.key]) h.key_chars h.value hlength
  rw [h.splitKey?] at hread
  simpa [Term.write_eq, orMalformed] using hread

/-- A text whose codes start with a key and `=` starts with them itself. -/
theorem exists_key {cs key tail : List Char} (hspan : (Text.codes cs).span isKeyChar = (key, tail))
    (hhead : tail.head? = some '=') :
    (∀ c ∈ key, isKeyChar c = true) ∧ ∃ rest, cs = key ++ '=' :: rest := by
  rw [List.span_eq_takeWhile_dropWhile, Prod.mk.injEq] at hspan
  have hkey : ∀ c ∈ key, isKeyChar c = true := fun c hc => List.mem_takeWhile_imp (hspan.1 ▸ hc)
  obtain ⟨codes, rfl⟩ : ∃ codes, tail = '=' :: codes := by
    cases tail with
    | nil => cases hhead
    | cons c codes => cases hhead; exact ⟨codes, rfl⟩
  have hcodes : Text.codes cs = (key ++ ['=']) ++ codes := by
    rw [List.append_assoc, List.singleton_append, ← hspan.2]
    conv => rhs; lhs; rw [← hspan.1]
    rw [List.takeWhile_append_dropWhile]
  obtain ⟨rest, rfl, -⟩ := Text.exists_append_of_codes (key_lt hkey) hcodes
  exact ⟨hkey, rest, by simp⟩

/-- Reading a term either gives one with which the text goes on, or finds the text malformed. -/
theorem readTerm_reads (before cs : List Char) :
    readTerm (Text.utf8 (before ++ cs)) (Text.utf8 before).length = .error .malformed ∨
      ∃ t rest, t.WellFormed ∧ t.separator = none ∧ cs = t.write ++ rest ∧
        readTerm (Text.utf8 (before ++ cs)) (Text.utf8 before).length =
          .ok (t, (Text.utf8 (before ++ t.write)).length) := by
  obtain ⟨key, tail, hspan⟩ : ∃ key tail, (Text.codes cs).span isKeyChar = (key, tail) := ⟨_, _, rfl⟩
  by_cases hstart : (key.isEmpty || tail.head? ≠ some '=') = true
  · left
    simp only [readTerm, Text.codesFrom_utf8, hspan, hstart, if_true]
  · simp only [Bool.or_eq_true, List.isEmpty_iff, decide_eq_true_eq, not_or, not_not] at hstart
    obtain ⟨hne, hhead⟩ := hstart
    obtain ⟨hkey, cs, rfl⟩ := exists_key hspan hhead
    cases hlength : valueLength? .bare (Text.codes cs) with
    | none =>
      left
      rw [readTerm_key before hne hkey]
      simp only [hlength, orMalformed, error_bind]
    | some n =>
      obtain ⟨value, more, hmore, hvalue, rfl⟩ := exists_of_valueLength? hlength
      have hvalue := isValue_iff.1 hvalue
      obtain ⟨rest, rfl, rfl⟩ := Text.exists_append_of_codes (value_lt hvalue) hmore
      rw [readTerm_eq before hne hkey hvalue hlength]
      cases hsplit : Term.splitKey? key with
      | none => exact .inl rfl
      | some k =>
        obtain ⟨field, word, operator⟩ := k
        obtain ⟨hkeyEq, -⟩ := Term.splitKey?_eq_some_iff.1 hsplit
        refine .inr ⟨⟨field, word, operator, value, none⟩, rest,
          Term.wellFormed_of_splitKey? hsplit hkey hvalue, rfl, ?_, ?_⟩
        · simp [Term.write, hkeyEq]
        · simp [Term.write, hkeyEq, orMalformed]

theorem scanFrom_eq (bytes : List UInt8) (pos : Nat) :
    scanFrom bytes pos =
      match readTerm bytes pos with
      | .error fault => .error fault
      | .ok (t, stop) =>
        match Text.codesFrom bytes stop with
        | [] => .ok [t]
        | symbol :: more =>
          match Connector.ofSymbol? symbol with
          | none => .error .malformed
          | some k =>
            if more.isEmpty then .error .malformed
            else (scanFrom bytes (stop + 1)).map ({ t with separator := some k } :: ·) := by
  rw [scanFrom]
  split
  · next h => rw [h]
  · next h =>
    rw [h]
    simp only
    split
    · next hcodes => rw [hcodes]
    · next hcodes => rw [hcodes]

theorem symbol_codes (k : Connector) (rest : List Char) :
    Text.codes (k.symbol :: rest) = k.symbol :: Text.codes rest := by
  simpa using Text.codes_append (symbol_lt k) rest

/-- After a term and a separator, the cursor stands before what follows them. -/
theorem scanFrom_separated {before : List Char} {t : Term} {k : Connector} {rest : List Char}
    (hread : readTerm (Text.utf8 (before ++ (t.write ++ k.symbol :: rest))) (Text.utf8 before).length =
      .ok (t, (Text.utf8 (before ++ t.write)).length)) (hne : rest ≠ []) :
    scanFrom (Text.utf8 (before ++ (t.write ++ k.symbol :: rest))) (Text.utf8 before).length =
      (scanFrom (Text.utf8 ((before ++ t.write ++ [k.symbol]) ++ rest))
        (Text.utf8 (before ++ t.write ++ [k.symbol])).length).map
          ({ t with separator := some k } :: ·) := by
  have hcodes := Text.codesFrom_utf8 (before ++ t.write) (k.symbol :: rest)
  have hnext : (Text.utf8 (before ++ t.write)).length + 1 =
      (Text.utf8 (before ++ t.write ++ [k.symbol])).length :=
    length_append_utf8 (before ++ t.write) (symbol_lt k)
  have hmore : (Text.codes rest).isEmpty = false := by
    rw [List.isEmpty_eq_false_iff, ne_eq, Text.codes_eq_nil_iff]
    exact hne
  rw [List.append_assoc] at hcodes
  rw [scanFrom_eq, hread]
  simp only [hcodes, symbol_codes, Connector.ofSymbol?_symbol, hmore, Bool.false_eq_true, if_false, hnext]
  simp only [List.append_assoc, List.singleton_append]

/-- What the cursor reads is a query with which the text goes on to its end; no slice on the way
is torn. -/
theorem scanFrom_sound (before : List Char) : ∀ cs : List Char,
    scanFrom (Text.utf8 (before ++ cs)) (Text.utf8 before).length = .error .malformed ∨
      ∃ ts, IsQuery ts ∧ writeQuery ts = cs ∧
        scanFrom (Text.utf8 (before ++ cs)) (Text.utf8 before).length = .ok ts := by
  intro cs
  rcases readTerm_reads before cs with hread | ⟨t, rest, ht, hs, rfl, hread⟩
  · left
    rw [scanFrom_eq, hread]
  · have hcodes := Text.codesFrom_utf8 (before ++ t.write) rest
    rw [List.append_assoc] at hcodes
    cases htail : Text.codes rest with
    | nil =>
      obtain rfl := Text.codes_eq_nil_iff.1 htail
      refine .inr ⟨[t], .last ht hs, by simp [writeQuery, hs], ?_⟩
      rw [scanFrom_eq, hread]
      simp only [hcodes, htail]
    | cons symbol more =>
      cases hk : Connector.ofSymbol? symbol with
      | none =>
        left
        rw [scanFrom_eq, hread]
        simp only [hcodes, htail, hk]
      | some k =>
        obtain rfl := Connector.ofSymbol?_eq_some_iff.1 hk
        have hsplit : Text.codes rest = [k.symbol] ++ more := htail
        obtain ⟨rest, rfl, rfl⟩ := Text.exists_append_of_codes (symbol_lt k) hsplit
        rw [List.singleton_append] at hread hcodes ⊢
        by_cases hne : rest = []
        · left
          have hmore : (Text.codes rest).isEmpty = true := by rw [hne]; rfl
          rw [scanFrom_eq, hread]
          simp only [hcodes, symbol_codes, hk, hmore, if_true]
        · rw [scanFrom_separated hread hne]
          rcases scanFrom_sound (before ++ t.write ++ [k.symbol]) rest with hrest | ⟨ts, hts, rfl, hrest⟩
          · left
            rw [hrest, error_map]
          · refine .inr ⟨{ t with separator := some k } :: ts, .cons (ht.withSeparator _) rfl hts, ?_, ?_⟩
            · simp [writeQuery, Term.write]
            · rw [hrest, ok_map]
termination_by cs => cs.length

theorem writeQuery_ne_nil {ts : List Term} (h : IsQuery ts) : writeQuery ts ≠ [] := by
  cases h <;> simp [writeQuery, Term.write]

theorem scanFrom_writeQuery (before : List Char) {ts : List Term} (h : IsQuery ts) :
    scanFrom (Text.utf8 (before ++ writeQuery ts)) (Text.utf8 before).length = .ok ts := by
  induction h generalizing before with
  | @last t ht hs =>
    have hend : ∀ c, (Text.codes []).head? = some c → c ≠ '(' ∧ isBareChar c = false := by
      simp [Text.codes, Text.utf8]
    have hread := readTerm_write before ht hend
    have hcodes := Text.codesFrom_utf8 (before ++ t.write) []
    have hlast : { t with separator := none } = t := by rw [← hs]
    simp only [List.append_nil] at hread hcodes
    simp only [writeQuery, hs, Option.map_none, Option.toList_none, List.append_nil]
    rw [scanFrom_eq, hread]
    simp only [hcodes, hlast]
    rfl
  | @cons t k rest ht hs hrest ih =>
    have hend : ∀ c, (Text.codes (k.symbol :: writeQuery rest)).head? = some c →
        c ≠ '(' ∧ isBareChar c = false := by
      intro c hc
      rw [symbol_codes, List.head?_cons, Option.some.injEq] at hc
      subst hc
      cases k <;> decide
    have hread := readTerm_write before ht hend
    have hstep := scanFrom_separated (t := { t with separator := none }) hread (writeQuery_ne_nil hrest)
    have hterm : { t with separator := some k } = t := by rw [← hs]
    have hwrite : ({ t with separator := none } : Term).write = t.write := rfl
    rw [ih, ok_map, hwrite, hterm] at hstep
    simpa only [writeQuery, hs, Option.map_some, Option.toList_some, List.append_assoc,
      List.singleton_append] using hstep

/-- **The cursor reads the terms that `scan?` reads, and tears no character.** -/
theorem scan_eq (query : String) : scan query = orMalformed (scan? query.toList) := by
  have hscan : scan query = scanFrom (Text.utf8 ([] ++ query.toList)) (Text.utf8 []).length := by
    rw [scan, Text.utf8_toList]
    rfl
  cases hquery : scan? query.toList with
  | some ts =>
    obtain ⟨hts, hwrite⟩ := scan?_eq_some_iff.1 hquery
    rw [hscan, ← hwrite, scanFrom_writeQuery [] hts, orMalformed]
  | none =>
    rcases scanFrom_sound [] query.toList with h | ⟨ts, hts, hwrite, -⟩
    · rw [hscan, h, orMalformed]
    · rw [scan?_eq_some_iff.2 ⟨hts, hwrite⟩] at hquery
      cases hquery

end Cursor

/-! ## The language -/

/-- **The query language is exactly the grammar.** A text is read into terms iff they are a query
that is written as the trimmed text, and they are the only such query; any other text is refused
with the trimmed text in the error. The cursor agrees, so it never cuts a character in two. -/
theorem query_exact (orderBy : Option String) (query : String) (hquery : Text.trim query ≠ "") :
    let e := ofTokens orderBy query
    (∀ ts, scan? e.query.toList = some ts ↔ IsQuery ts ∧ writeQuery ts = e.query.toList) ∧
      (∀ ts us, IsQuery ts → IsQuery us → writeQuery ts = e.query.toList →
        writeQuery us = e.query.toList → ts = us) ∧
      (scan? e.query.toList = none →
        compile e = .error (.invalidExpression (Text.trim query))) ∧
      (∀ ts, Cursor.scan e.query = .ok ts ↔ scan? e.query.toList = some ts) ∧
      Cursor.scan e.query ≠ .error .torn := by
  intro e
  refine ⟨fun ts => scan?_eq_some_iff, ?_, ?_, ?_, ?_⟩
  · intro ts us hts hus ht hu
    exact writeQuery_injective hts hus (ht.trans hu.symm)
  · intro hscan
    have hempty : e.query.toList.isEmpty = false := by
      rw [List.isEmpty_eq_false_iff, ne_eq, String.toList_eq_nil_iff]
      exact hquery
    have hfilter : filterOf? e.query.toList = none := by
      simp only [filterOf?, hempty, hscan, Bool.false_eq_true, if_false, Option.bind_none]
    rw [compile, hfilter]
    rfl
  · intro ts
    rw [Cursor.scan_eq]
    cases scan? e.query.toList <;> simp [Cursor.orMalformed]
  · rw [Cursor.scan_eq]
    cases scan? e.query.toList <;> simp [Cursor.orMalformed]

/-- A field with an underscore, and a value with a list in it. -/
theorem query_exact_of_two_terms :
    Text.trim " a_b_Eq=x|c_IN=(1)# " ≠ "" ∧
      scan? (ofTokens none " a_b_Eq=x|c_IN=(1)# ").query.toList =
        some [⟨['a', '_', 'b'], ['E', 'q'], .comparison .eq, ['x'], some .or⟩,
          ⟨['c'], ['I', 'N'], .comparison .isIn, ['(', '1', ')', '#'], none⟩] := by
  have htrim : Text.trim " a_b_Eq=x|c_IN=(1)# " ≠ "" := by decide
  have hexact := (query_exact none " a_b_Eq=x|c_IN=(1)# " htrim).1
  refine ⟨htrim, (hexact _).2 ⟨.cons ?_ rfl (.last ?_ rfl), by decide⟩⟩
  · exact ⟨by decide, List.all_eq_true.1 rfl, by decide, by decide, isValue_iff.1 rfl⟩
  · exact ⟨by decide, List.all_eq_true.1 rfl, by decide, by decide, isValue_iff.1 rfl⟩

end Docbase.Expression
