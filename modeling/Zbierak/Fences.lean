import Zbierak.IssuePage
import Zbierak.Lib.Lines
import Mathlib.Data.Bool.AllAny
import Mathlib.Data.List.TakeWhile

/-!
# Fenced blocks of the Markdown export

A fence is longer than every run of backquotes in what it encloses, so a reader
of the document finds the end of a block where the export wrote it.
-/
namespace Zbierak.Fences

open IssuePage (longestRun fenceFor fenced)

/-- The backquote. -/
abbrev tick : Char := Char.ofNat 96

def run (n : Nat) : List Char := List.replicate n tick

variable {cs ds : List Char} {n current longest : Nat}

theorem longest_le_longestRun (cs : List Char) (current longest : Nat) :
    longest ≤ longestRun cs current longest := by
  induction cs generalizing current longest with
  | nil => exact Nat.le_refl _
  | cons c cs ih =>
    rw [longestRun]
    split
    · exact Nat.le_trans (Nat.le_max_left _ _) (ih _ _)
    · exact ih _ _

/-- A run at the start of the rest continues the current one. -/
theorem prefix_le_longestRun (h : run n <+: cs) (hpos : 0 < n) :
    current + n ≤ longestRun cs current longest := by
  induction n generalizing cs current longest with
  | zero => exact absurd hpos (Nat.lt_irrefl 0)
  | succ n ih =>
    obtain ⟨rest, rfl⟩ := h
    rw [run, List.replicate_succ, List.cons_append, longestRun, if_pos rfl]
    rcases Nat.eq_zero_or_pos n with rfl | hn
    · exact Nat.le_trans (Nat.le_max_right _ _) (longest_le_longestRun _ _ _)
    · have hrest : current + 1 + n ≤
          longestRun (run n ++ rest) (current + 1) (max longest (current + 1)) :=
        ih (List.prefix_append _ rest) hn
      rw [run] at hrest
      omega

theorem infix_le_longestRun (h : run n <:+: cs) (hpos : 0 < n) :
    n ≤ longestRun cs current longest := by
  induction cs generalizing current longest with
  | nil =>
    rw [List.infix_nil, run, List.replicate_eq_nil_iff] at h
    omega
  | cons c cs ih =>
    rcases List.infix_cons_iff.mp h with hprefix | hinfix
    · exact Nat.le_trans (Nat.le_add_left n current) (prefix_le_longestRun hprefix hpos)
    · rw [longestRun]
      split <;> exact ih hinfix

/-- Number of backquotes of the fence around a text. -/
def fenceLength (content : String) : Nat := max (longestRun content.toList 0 0) 2 + 1

theorem toList_fenceFor (content : String) :
    (fenceFor content).toList = run (fenceLength content) := String.toList_ofList

theorem run_lt_fenceLength {content : String} (h : run n <:+: content.toList) :
    n < fenceLength content := by
  rw [fenceLength, Nat.lt_succ_iff]
  rcases Nat.eq_zero_or_pos n with rfl | hpos
  · exact Nat.zero_le _
  · exact Nat.le_trans (infix_le_longestRun h hpos) (Nat.le_max_left _ _)

/-! Reading a document. -/

def isLineEnd (c : Char) : Bool := c == '\n' || c == '\r'

def lines (text : List Char) : List (List Char) := text.splitOnP isLineEnd

def isSpace (c : Char) : Bool := c == ' '

def isTick (c : Char) : Bool := c == tick

def isBlank (c : Char) : Bool := c == ' ' || c == '\t'

/-- The backquotes that a line starts with, behind at most three spaces, and what
stands after them. -/
def leadingTicks (line : List Char) : Nat × List Char :=
  let text := line.dropWhile isSpace
  if (line.takeWhile isSpace).length ≤ 3 then
    ((text.takeWhile isTick).length, text.dropWhile isTick)
  else (0, text)

/-- A fence opens a block with at least three backquotes and an info string that
has none. -/
def opens (line : List Char) : Option (Nat × List Char) :=
  let (ticks, info) := leadingTicks line
  if 3 ≤ ticks ∧ tick ∉ info then some (ticks, info) else none

/-- It is closed by a line with at least as many, and nothing but blanks after them. -/
def closes (ticks : Nat) (line : List Char) : Bool :=
  ticks ≤ (leadingTicks line).1 ∧ (leadingTicks line).2.all isBlank

structure Block where
  info : List Char
  content : List (List Char)
  rest : List (List Char)
  deriving DecidableEq, Repr

/-- The block that the first line opens; without a closing fence it has all lines. -/
def readBlock : List (List Char) → Option Block
  | [] => none
  | line :: after => (opens line).map fun (ticks, info) =>
    ⟨info, after.takeWhile fun l => !closes ticks l, (after.dropWhile fun l => !closes ticks l).tail⟩

theorem takeWhile_run (n : Nat) {info : List Char} (h : tick ∉ info) :
    (run n ++ info).takeWhile isTick = run n ∧ (run n ++ info).dropWhile isTick = info := by
  induction n with
  | zero =>
    cases info with
    | nil => exact ⟨rfl, rfl⟩
    | cons c info =>
      have hc : isTick c = false := by
        rw [isTick, beq_eq_false_iff_ne]
        exact fun hc => h (hc ▸ List.mem_cons_self)
      simp [run, hc]
  | succ n ih => simpa [run, List.replicate_succ, isTick] using ih

/-- A line that starts with a run has it as its leading backquotes. -/
theorem leadingTicks_run (hpos : 0 < n) {info : List Char} (h : tick ∉ info) :
    leadingTicks (run n ++ info) = (n, info) := by
  obtain ⟨m, rfl⟩ := Nat.exists_eq_succ_of_ne_zero (Nat.ne_of_gt hpos)
  have hspace : isSpace tick = false := by decide
  have hdrop : (run (m + 1) ++ info).dropWhile isSpace = run (m + 1) ++ info := by
    simp [run, List.replicate_succ, hspace]
  have htake : (run (m + 1) ++ info).takeWhile isSpace = [] := by
    simp [run, List.replicate_succ, hspace]
  obtain ⟨hticks, hinfo⟩ := takeWhile_run (m + 1) h
  simp only [leadingTicks, hdrop, htake, hticks, hinfo]
  simp [run]

/-- The leading backquotes of a line are a run in it. -/
theorem run_leadingTicks (line : List Char) : run (leadingTicks line).1 <:+: line := by
  unfold leadingTicks
  dsimp only
  split
  · have hall : ∀ c ∈ (line.dropWhile isSpace).takeWhile isTick, c = tick := fun c hc => by
      simpa [isTick] using List.mem_takeWhile_imp hc
    rw [run, ← List.eq_replicate_of_mem hall]
    exact (List.takeWhile_prefix _).isInfix.trans (List.dropWhile_suffix _).isInfix
  · exact List.nil_infix

/-- No line of a text closes the fence around it. -/
theorem not_closes {content : String} {line : List Char} (h : line ∈ lines content.toList) :
    closes (fenceLength content) line = false := by
  have hrun : run (leadingTicks line).1 <:+: content.toList :=
    (run_leadingTicks line).trans (Lines.infix_of_mem_splitOnP h)
  have hlt := run_lt_fenceLength hrun
  rw [closes, decide_eq_false_iff_not]
  exact fun hcloses => Nat.not_le.mpr hlt hcloses.1

theorem lines_append (text rest : List Char) {c : Char} (h : isLineEnd c = true) :
    lines (text ++ c :: rest) = lines text ++ lines rest := List.splitOnP_append_cons text rest h

/-- A line that starts with a run and what follows it. -/
theorem lines_run (n : Nat) {info : List Char} (h : ∀ c ∈ info, isLineEnd c = false)
    (rest : List Char) :
    lines (run n ++ info ++ '\n' :: rest) = (run n ++ info) :: lines rest := by
  have hline : lines (run n ++ info) = [run n ++ info] := by
    refine List.splitOnP_eq_singleton fun c hc => ?_
    rcases List.mem_append.mp hc with hc | hc
    · rw [List.eq_of_mem_replicate hc]
      decide
    · exact h c hc
  rw [lines_append _ _ rfl, hline, List.singleton_append]

theorem toList_fenced (content info : String) (rest : List Char) :
    (fenced content info).toList ++ rest = run (fenceLength content) ++ info.toList ++ '\n' ::
      (content.toList ++ '\n' :: (run (fenceLength content) ++ [] ++ '\n' :: '\n' :: rest)) := by
  simp [fenced, toString, toList_fenceFor]

/-- A block ends at the first line that closes it. -/
theorem readBlock_eq {ticks : Nat} {line closing info : List Char} {content rest : List (List Char)}
    (hopens : opens line = some (ticks, info)) (hcontent : ∀ l ∈ content, closes ticks l = false)
    (hcloses : closes ticks closing = true) :
    readBlock (line :: (content ++ closing :: rest)) = some ⟨info, content, rest⟩ := by
  have hkeep : ∀ l ∈ content, (!closes ticks l) = true := fun l hl => by rw [hcontent l hl]; rfl
  rw [readBlock, hopens, Option.map_some]
  dsimp only
  rw [List.takeWhile_append_of_pos hkeep, List.dropWhile_append_of_pos hkeep,
    List.takeWhile_cons_of_neg (by simp [hcloses]), List.dropWhile_cons_of_neg (by simp [hcloses]),
    List.append_nil, List.tail_cons]

theorem opens_fence {content : String} {info : List Char} (h : tick ∉ info) :
    opens (run (fenceLength content) ++ info) = some (fenceLength content, info) := by
  have hpos : 0 < fenceLength content := Nat.succ_pos _
  have hthree : 3 ≤ fenceLength content := Nat.succ_le_succ (Nat.le_max_right _ _)
  simp only [opens, leadingTicks_run hpos h]
  exact if_pos ⟨hthree, h⟩

theorem closes_fence (content : String) :
    closes (fenceLength content) (run (fenceLength content) ++ []) = true := by
  have hpos : 0 < fenceLength content := Nat.succ_pos _
  rw [closes, leadingTicks_run hpos List.not_mem_nil]
  simp

/-- What the export writes is read back as one block with all of the content,
whatever follows it. -/
theorem readBlock_fenced (content : String) {info : String}
    (hline : ∀ c ∈ info.toList, isLineEnd c = false) (hticks : tick ∉ info.toList) (rest : List Char) :
    readBlock (lines ((fenced content info).toList ++ rest)) =
      some ⟨info.toList, lines content.toList, lines ('\n' :: rest)⟩ := by
  rw [toList_fenced, lines_run _ hline, lines_append _ _ rfl,
    lines_run _ fun c hc => (List.not_mem_nil hc).elim]
  exact readBlock_eq (opens_fence hticks) (fun l hl => not_closes hl) (closes_fence content)

/-- A fence is longer than every run in its content, so the error text, the stack
trace and the payload of an event, which have no info string or `json`, end where
the export ends them. -/
theorem fence_encloses (content : String) :
    (∀ c ∈ (fenceFor content).toList, c = tick) ∧ 3 ≤ (fenceFor content).toList.length ∧
    (∀ n, List.replicate n tick <:+: content.toList → n < (fenceFor content).toList.length) ∧
    ∀ info ∈ ["", "json"], ∀ rest : List Char,
      readBlock (lines ((fenced content info).toList ++ rest)) =
        some ⟨info.toList, lines content.toList, lines ('\n' :: rest)⟩ := by
  have hlength : (fenceFor content).toList.length = fenceLength content := by
    rw [toList_fenceFor, run, List.length_replicate]
  refine ⟨fun c hc => ?_, ?_, fun n h => hlength ▸ run_lt_fenceLength h, fun info hinfo rest => ?_⟩
  · rw [toList_fenceFor] at hc
    exact List.eq_of_mem_replicate hc
  · exact hlength ▸ Nat.succ_le_succ (Nat.le_max_right _ _)
  · have hall : (info.toList.all fun c => isLineEnd c = false ∧ c ≠ tick) = true := by
      rcases List.mem_pair.mp hinfo with rfl | rfl <;> decide
    have hplain := List.all_iff_forall_prop.mp hall
    exact readBlock_fenced content (fun c hc => (hplain c hc).1) (fun hc => (hplain tick hc).2 rfl) rest

end Zbierak.Fences
