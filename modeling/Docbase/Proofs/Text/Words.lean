/-
The words of a text. A text is cut at the characters that belong to no word (`runs_eq_splitOnP`), so of two
texts with such a character between them the words are those of the one and then those of the other
(`words_append`). What is not empty between the cuts are the longest runs of characters that belong to words
(`mem_runs_iff`), which says what two texts have in common that share a word (`shareWord_iff`).
-/
import Docbase.Text.Words

namespace Docbase.Text

variable {c : Char} {run cs before after : List Char} {s t : String} {w : List Char}

/-! ## Cuts -/

/-- Whether a character belongs to no word. -/
def isBreak (c : Char) : Bool := !isAlphanumeric c

theorem runs_eq_splitOnP (cs : List Char) : runs cs = cs.splitOnP isBreak := by
  induction cs with
  | nil => rfl
  | cons c cs ih =>
    obtain ⟨run, more, hruns⟩ := List.exists_cons_of_ne_nil (List.splitOnP_ne_nil isBreak cs)
    rw [List.splitOnP_cons_eq_if_modifyHead, runs, ih, hruns]
    cases hc : isAlphanumeric c <;> simp [isBreak, hc]

/-- At a character that belongs to no word a text falls into two. -/
theorem runs_append (hc : isAlphanumeric c = false) (xs ys : List Char) :
    runs (xs ++ c :: ys) = runs xs ++ runs ys := by
  simp only [runs_eq_splitOnP]
  exact List.splitOnP_append_cons xs ys (by simp [isBreak, hc])

theorem words_append (hc : isAlphanumeric c = false) (s t : String) :
    words (s ++ String.singleton c ++ t) = words s ++ words t := by
  simp [words, runs_append hc]

/-! ## Runs -/

/-- Whether a run is one of the longest in a text: all its characters belong to words, and none that does stands
next to it. -/
structure IsRun (run cs : List Char) : Prop where
  ne_nil : run ≠ []
  isAlphanumeric : ∀ c ∈ run, isAlphanumeric c = true
  bounded : ∃ before after, cs = before ++ run ++ after ∧
    (∀ c, before.getLast? = some c → Text.isAlphanumeric c = false) ∧
    ∀ c, after.head? = some c → Text.isAlphanumeric c = false

theorem runs_of_all (h : ∀ c ∈ run, isAlphanumeric c = true) : runs run = [run] := by
  rw [runs_eq_splitOnP]
  exact List.splitOnP_eq_singleton fun c hc => by simp [isBreak, h c hc]

theorem runs_head (h : ∀ c ∈ run, isAlphanumeric c = true) (hc : isAlphanumeric c = false) (cs : List Char) :
    runs (run ++ c :: cs) = run :: runs cs := by
  rw [runs_append hc, runs_of_all h, List.singleton_append]

theorem IsRun.mem_runs (h : IsRun run cs) : run ∈ runs cs := by
  obtain ⟨before, after, rfl, hbefore, hafter⟩ := h.bounded
  have hrun : run ∈ runs (run ++ after) := by
    cases after with
    | nil => simp [runs_of_all h.isAlphanumeric]
    | cons c rest => simp [runs_head h.isAlphanumeric (hafter c rfl)]
  rw [List.append_assoc]
  rcases List.eq_nil_or_concat before with rfl | ⟨front, c, rfl⟩
  · exact hrun
  · have hc : Text.isAlphanumeric c = false := hbefore c (by simp)
    simp [runs_append hc, hrun]

theorem isRun_of_mem_runs (cs : List Char) (hmem : run ∈ runs cs) (hne : run ≠ []) : IsRun run cs := by
  cases hbreak : cs.find? isBreak with
  | none =>
    have hall : ∀ c ∈ cs, isAlphanumeric c = true := by simpa [isBreak] using hbreak
    obtain rfl : run = cs := by simpa [runs_of_all hall] using hmem
    exact ⟨hne, hall, [], [], by simp, by simp, by simp⟩
  | some c =>
    obtain ⟨hc, first, rest, rfl, hfirst⟩ := List.find?_eq_some_iff_append.1 hbreak
    have hc : isAlphanumeric c = false := by simpa [isBreak] using hc
    have hfirst : ∀ x ∈ first, isAlphanumeric x = true := by simpa [isBreak] using hfirst
    rw [runs_head hfirst hc, List.mem_cons] at hmem
    rcases hmem with rfl | hmem
    · exact ⟨hne, hfirst, [], c :: rest, by simp, by simp, by simp [hc]⟩
    · obtain ⟨-, hrun, before, after, rfl, hbefore, hafter⟩ := isRun_of_mem_runs rest hmem hne
      refine ⟨hne, hrun, first ++ c :: before, after, by simp, fun x hx => ?_, hafter⟩
      -- A run at the start of the rest has the cut before it.
      cases hlast : before.getLast? with
      | none => simp_all [List.getLast?_cons]
      | some y => simp_all [List.getLast?_cons]
termination_by cs.length

/-- What is not empty between the cuts are the longest runs. -/
theorem mem_runs_iff : run ∈ runs cs ∧ run ≠ [] ↔ IsRun run cs :=
  ⟨fun h => isRun_of_mem_runs cs h.1 h.2, fun h => ⟨h.mem_runs, h.ne_nil⟩⟩

theorem mem_words_iff : w ∈ words s ↔ ∃ run, IsRun run s.toList ∧ lowerCase run = w := by
  simp only [words, List.mem_map, List.mem_filter, ← mem_runs_iff, Bool.not_eq_true', List.isEmpty_eq_false_iff]

/-- Whether two texts have a word in common, in whatever case it is written. -/
def ShareWord (s t : String) : Prop :=
  ∃ run run', IsRun run s.toList ∧ IsRun run' t.toList ∧ lowerCase run = lowerCase run'

theorem shareWord_iff : ShareWord s t ↔ ∃ w ∈ words t, w ∈ words s := by
  simp only [ShareWord, mem_words_iff]
  constructor
  · intro ⟨run, run', hrun, hrun', hsame⟩
    exact ⟨_, ⟨run', hrun', rfl⟩, run, hrun, hsame⟩
  · intro ⟨_, ⟨run', hrun', rfl⟩, run, hrun, hsame⟩
    exact ⟨run, run', hrun, hrun', hsame⟩

end Docbase.Text
