/-
What camel case makes of a name. How many characters are lowered depends on the run of upper-case characters at
the start and on what follows it (`camelChars_eq`), and all else stays (`camelCase_lowers_run`). The name is read
along the list of its characters; a pass over its positions, which looks one position ahead and overwrites what
it has resolved in place, comes to the same (`byPosition_eq`).
-/
import Docbase.Naming
import Mathlib.Data.List.TakeWhile

namespace Docbase.NamingStrategy

open Text

variable {c next : Char} {cs rest : List Char} {k n : Nat}

/-! ## Names whose first characters are lowered -/

/-- The text with its first `k` characters lowered. -/
def lowerFirst (k : Nat) (cs : List Char) : List Char :=
  (cs.take k).map lowerChar ++ cs.drop k

@[simp] theorem lowerFirst_zero (cs : List Char) : lowerFirst 0 cs = cs := rfl

@[simp] theorem lowerFirst_nil (k : Nat) : lowerFirst k [] = [] := by
  simp [lowerFirst]

@[simp] theorem lowerFirst_succ_cons (k : Nat) (c : Char) (cs : List Char) :
    lowerFirst (k + 1) (c :: cs) = lowerChar c :: lowerFirst k cs := rfl

@[simp] theorem length_lowerFirst (k : Nat) (cs : List Char) : (lowerFirst k cs).length = cs.length := by
  simp [lowerFirst]
  omega

theorem drop_lowerFirst (h : k ≤ n) (cs : List Char) : (lowerFirst k cs).drop n = cs.drop n := by
  induction cs generalizing k n with
  | nil => simp
  | cons c cs ih =>
    cases k with
    | zero => simp
    | succ k =>
      obtain ⟨n, rfl⟩ : ∃ m, n = m + 1 := ⟨n - 1, by omega⟩
      simpa using ih (by omega)

/-! ## The run of upper-case characters -/

/-- The length of the run of upper-case characters at the start. -/
def runLength (cs : List Char) : Nat := (cs.takeWhile isUppercase).length

theorem runLength_cons (c : Char) (cs : List Char) :
    runLength (c :: cs) = if isUppercase c then runLength cs + 1 else 0 := by
  cases hc : isUppercase c <;> simp [runLength, hc]

/-- How many characters are lowered behind a first one that is: the whole run if the text ends with it or white
space follows, and all but its last one, which then starts a word, if something else does. -/
def loweredLength (cs : List Char) : Nat :=
  match cs[runLength cs]? with
  | some c => if isBlank c then runLength cs else runLength cs - 1
  | none => runLength cs

theorem loweredLength_cons_cons (hc : isUppercase c = true) (hnext : isUppercase next = true) (rest : List Char) :
    loweredLength (c :: next :: rest) = loweredLength (next :: rest) + 1 := by
  rw [loweredLength, loweredLength, runLength_cons c, if_pos hc, List.getElem?_cons_succ]
  have hpos : 0 < runLength (next :: rest) := by simp [runLength_cons, hnext]
  cases (next :: rest)[runLength (next :: rest)]? with
  | none => rfl
  | some after =>
    dsimp only
    split <;> omega

theorem lowerRun_eq (cs : List Char) : lowerRun cs = lowerFirst (loweredLength cs) cs := by
  induction cs using lowerRun.induct with
  | case1 => rfl
  | case2 c hc | case3 c hc => simp [lowerRun, loweredLength, runLength, hc]
  | case4 c next rest hc hnext ih =>
    rw [lowerRun, if_pos hc, if_pos hnext, ih, loweredLength_cons_cons hc hnext, lowerFirst_succ_cons]
  | case5 c next rest hc hnext hblank | case6 c next rest hc hnext hblank =>
    simp [lowerRun, loweredLength, runLength_cons, hc, hnext, hblank]
  | case7 c next rest hc => simp [lowerRun, loweredLength, runLength_cons, hc]

/-- How many characters of a name are lowered. A run of one character is lowered whatever follows. -/
def camelLength (cs : List Char) : Nat :=
  match cs[runLength cs]? with
  | some c => if runLength cs ≤ 1 ∨ isBlank c = true then runLength cs else runLength cs - 1
  | none => runLength cs

theorem camelLength_cons (hc : isUppercase c = true) (rest : List Char) :
    camelLength (c :: rest) = loweredLength rest + 1 := by
  rw [camelLength, loweredLength, runLength_cons, if_pos hc, List.getElem?_cons_succ]
  cases rest[runLength rest]? with
  | none => rfl
  | some after =>
    cases hblank : isBlank after with
    | true => simp [hblank]
    | false =>
      simp [hblank]
      split <;> omega

theorem camelChars_eq (cs : List Char) : camelChars cs = lowerFirst (camelLength cs) cs := by
  cases cs with
  | nil => rfl
  | cons c rest =>
    cases hc : isUppercase c with
    | false => simp [camelChars, camelLength, runLength_cons, hc]
    | true => rw [camelChars, if_pos hc, lowerRun_eq, camelLength_cons hc, lowerFirst_succ_cons]

theorem camelLength_le (cs : List Char) : camelLength cs ≤ runLength cs := by
  rw [camelLength]
  split
  · split <;> omega
  · exact Nat.le_refl _

theorem camelLength_of_le_one (h : runLength cs ≤ 1) : camelLength cs = runLength cs := by
  rw [camelLength]
  split <;> simp [h]

theorem camelLength_of_closed (h : runLength cs = cs.length ∨ ∃ c, cs[runLength cs]? = some c ∧ isBlank c = true) :
    camelLength cs = runLength cs := by
  rcases h with hend | ⟨c, hnext, hblank⟩
  · rw [camelLength, List.getElem?_eq_none hend.ge]
  · simp [camelLength, hnext, hblank]

theorem camelLength_of_open (hrun : 2 ≤ runLength cs) (hnext : cs[runLength cs]? = some c)
    (hblank : isBlank c = false) : camelLength cs = runLength cs - 1 := by
  rw [camelLength, hnext]
  exact if_neg (by simp [hblank]; omega)

/-! ## By position -/

/-- The pass over a name from position `i` on that has resolved it to `resolved` so far. -/
def passFrom (cs : List Char) (i : Nat) (resolved : List Char) : List Char :=
  if h : i < cs.length then
    if i = 1 ∧ isUppercase cs[i] = false then resolved
    else
      let lowered := resolved.set i (lowerChar cs[i])
      match cs[i + 1]? with
      | some next =>
        if 0 < i ∧ isUppercase next = false then if isBlank next then lowered else resolved
        else passFrom cs (i + 1) lowered
      | none => passFrom cs (i + 1) lowered
  else resolved
termination_by cs.length - i

/-- The name after a pass from its first position, which only a name that starts with an upper-case character
gets. -/
def byPosition (cs : List Char) : List Char :=
  match cs.head? with
  | some c => if isUppercase c then passFrom cs 0 cs else cs
  | none => cs

theorem set_lowered (front : List Char) (c : Char) (rest : List Char) :
    (front.map lowerChar ++ c :: rest).set front.length (lowerChar c) = (front ++ [c]).map lowerChar ++ rest := by
  simp

/-- Behind its first position a pass has lowered what lies before it, and stands at an upper-case character if
it is past the second one, where it does not look any more. -/
theorem passFrom_eq (front : List Char) (hfront : front ≠ [])
    (hupper : 1 < front.length → ∀ c, rest.head? = some c → isUppercase c = true) :
    passFrom (front ++ rest) front.length (front.map lowerChar ++ rest) = front.map lowerChar ++ lowerRun rest := by
  induction rest generalizing front with
  | nil => simp [passFrom, lowerRun]
  | cons c rest ih =>
    have hpos : 0 < front.length := List.length_pos_iff.2 hfront
    have hgo (hrest : ∀ next, rest.head? = some next → isUppercase next = true) :
        passFrom (front ++ c :: rest) (front.length + 1) ((front ++ [c]).map lowerChar ++ rest) =
          (front ++ [c]).map lowerChar ++ lowerRun rest := by
      simpa using ih (front ++ [c]) (by simp) fun _ => hrest
    have hnext : (front ++ c :: rest)[front.length + 1]? = rest.head? := by
      simp [List.getElem?_append_right, List.head?_eq_getElem?]
    rw [passFrom, dif_pos (by simp), List.getElem_append_right (Nat.le_refl _), hnext]
    simp only [Nat.sub_self, List.getElem_cons_zero, set_lowered]
    cases hc : isUppercase c with
    | false =>
      have hone : front.length = 1 := by
        by_contra hne
        simpa [hc] using hupper (by omega) c rfl
      cases rest <;> simp [hone, lowerRun, hc]
    | true =>
      cases rest with
      | nil => simpa [lowerRun, hc] using hgo
      | cons next rest =>
        cases hcase : isUppercase next with
        | true => simpa [lowerRun, hc, hcase, hpos] using hgo
        | false => cases hblank : isBlank next <;> simp [lowerRun, hc, hcase, hpos, hblank]

theorem byPosition_eq (cs : List Char) : byPosition cs = camelChars cs := by
  cases cs with
  | nil => rfl
  | cons c rest =>
    cases hc : isUppercase c with
    | false => simp [byPosition, camelChars, hc]
    | true =>
      have hgo : passFrom (c :: rest) 1 (lowerChar c :: rest) = lowerChar c :: lowerRun rest :=
        passFrom_eq [c] (List.cons_ne_nil _ _) (by simp)
      rw [byPosition, camelChars, passFrom]
      cases rest <;> simpa [hc] using hgo

/-! ## The names that camel case gives -/

theorem toList_resolve_camelCase (name : String) :
    (camelCase.resolve name).toList = lowerFirst (camelLength name.toList) name.toList := by
  rw [resolve, String.toList_ofList, camelChars_eq]

theorem head?_lower (c : Char) : (lower c).head? = some (lowerChar c) := by
  rw [lower, lowerChar]
  split <;> rfl

/-- **Camel case lowers the run of upper-case characters at the start of a name.** A name without such a run
stays, and a run of one character is lowered. A longer run is lowered as a whole if the name ends with it or white
space follows, and but for its last character if something else follows. The length stays, and so does what
follows the run. A character is lowered to the first character of its lower-case form. A pass over the
positions of the name gives the same. -/
theorem camelCase_lowers_run (name : String) :
    let cs := name.toList
    let n := runLength cs
    let shown := (camelCase.resolve name).toList
    (n = 0 → camelCase.resolve name = name) ∧
    (n = 1 → shown = lowerFirst 1 cs) ∧
    (2 ≤ n → (n = cs.length ∨ ∃ c, cs[n]? = some c ∧ isBlank c = true) → shown = lowerFirst n cs) ∧
    (2 ≤ n → (∃ c, cs[n]? = some c ∧ isBlank c = false) → shown = lowerFirst (n - 1) cs) ∧
    shown.length = cs.length ∧ shown.drop n = cs.drop n ∧
    (∀ c, (lower c).head? = some (lowerChar c)) ∧ byPosition cs = shown := by
  intro cs n shown
  have hshown : shown = lowerFirst (camelLength cs) cs := toList_resolve_camelCase name
  refine ⟨fun hn => ?_, fun hn => ?_, fun _ hclosed => ?_, fun hn ⟨c, hnext, hblank⟩ => ?_, ?_, ?_, head?_lower, ?_⟩
  · have hnone : camelLength cs = 0 := Nat.le_zero.1 (hn ▸ camelLength_le cs)
    rw [← String.toList_inj, toList_resolve_camelCase, hnone, lowerFirst_zero]
  · have hone : camelLength cs = 1 := (camelLength_of_le_one hn.le).trans hn
    rw [hshown, hone]
  · rw [hshown, camelLength_of_closed hclosed]
  · rw [hshown, camelLength_of_open hn hnext hblank]
  · rw [hshown, length_lowerFirst]
  · rw [hshown, drop_lowerFirst (camelLength_le cs)]
  · rw [hshown, byPosition_eq, camelChars_eq]

/-- A name without a run, runs of one character and of the whole name, and a run of four before a lower-case
character and of three before white space. -/
theorem camelCase_lowers_run_of_names :
    camelCase.resolve "name" = "name" ∧ camelCase.resolve "Id" = "id" ∧ camelCase.resolve "ABC" = "abc" ∧
      camelCase.resolve "URLPath" = "urlPath" ∧ camelCase.resolve "URL path" = "url path" := by
  obtain ⟨hnone, -⟩ := camelCase_lowers_run "name"
  obtain ⟨-, hone, -⟩ := camelCase_lowers_run "Id"
  obtain ⟨-, -, hwhole, -⟩ := camelCase_lowers_run "ABC"
  obtain ⟨-, -, -, hword, -⟩ := camelCase_lowers_run "URLPath"
  obtain ⟨-, -, hblank, -⟩ := camelCase_lowers_run "URL path"
  refine ⟨hnone (by decide), ?_, ?_, ?_, ?_⟩
  · exact String.toList_inj.1 ((hone (by decide)).trans (by decide))
  · exact String.toList_inj.1 ((hwhole (by decide) (.inl (by decide))).trans (by decide))
  · exact String.toList_inj.1 ((hword (by decide) ⟨'a', by decide⟩).trans (by decide))
  · exact String.toList_inj.1 ((hblank (by decide) (.inr ⟨' ', by decide⟩)).trans (by decide))

end Docbase.NamingStrategy
