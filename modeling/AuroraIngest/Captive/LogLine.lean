import Mathlib.Data.List.Basic

/-!
# The runner's log line writer

`createCmd` sets the child's standard output and error to `getLogLineWriter()`: the write end
of an `io.Pipe`, whose read end a goroutine reads with `bufio.Reader.ReadString('\n')`,
printing each line with a leading timestamp removed by
`^\d{4}-\d{2}-\d{2}T\d{2}:\d{2}:\d{2}\.\d{3} `. Text is a list of characters; the newline
byte of UTF-8 is the character `'\n'`, so lines split the same way.

A write to an `io.Pipe` returns once the reader has taken all of it, so when the goroutine
blocks again it has read everything written so far, and its state is the fragment `ReadString`
has read past the last newline and what it has printed. `exec.Cmd` copies the child's output
into the writer and never closes it, so `ReadString` never returns an error: the loop's `break` is never reached, and the goroutine
waits for more text after the child has exited. Printing is determined by the concatenation of
the child's writes, however they are cut (`writes_eq_write_flatten`), and a last line without
a newline is held and never printed (`writes_prints_complete_lines`).
-/

namespace AuroraIngest.Captive.LogLine

/-- One item of the pattern: `\d`, an ASCII digit, or a literal character. -/
inductive Atom where
  | digit
  | char (c : Char)
  deriving DecidableEq, Repr

def Atom.matches : Atom → Char → Bool
  | .digit, c => c.isDigit
  | .char a, c => c == a

/-- `^\d{4}-\d{2}-\d{2}T\d{2}:\d{2}:\d{2}\.\d{3} `, after its anchor, one atom a character. -/
def dateRx : List Atom :=
  [.digit, .digit, .digit, .digit, .char '-', .digit, .digit, .char '-', .digit, .digit,
    .char 'T', .digit, .digit, .char ':', .digit, .digit, .char ':', .digit, .digit,
    .char '.', .digit, .digit, .digit, .char ' ']

/-- The text after a match of `atoms` at the start of `s`, if there is one. -/
def matchPrefix : List Atom → List Char → Option (List Char)
  | [], s => some s
  | _ :: _, [] => none
  | a :: as, c :: s => if a.matches c then matchPrefix as s else none

/-- `dateRx.ReplaceAllString(line, "")`. The pattern is anchored at the start of the text and
matches no empty string, so it is removed at most once, from the start of the line. -/
def replaceDate (line : List Char) : List Char := (matchPrefix dateRx line).getD line

/-- `br.ReadString('\n')` called again and again over the text the pipe has delivered, after
`fragment` read by the call that was waiting: the lines it returns, each with its newline,
and the fragment it holds when the text runs out. -/
def readString (fragment : List Char) : List Char → List (List Char) × List Char
  | [] => ([], fragment)
  | c :: cs =>
    if c = '\n' then
      let (lines, rest) := readString [] cs
      ((fragment ++ ['\n']) :: lines, rest)
    else readString (fragment ++ [c]) cs

/-- The goroutine `getLogLineWriter` starts, blocked on the pipe: the fragment its
`ReadString` holds, and what `fmt.Print` has written. -/
structure LineWriter where
  fragment : List Char
  printed : List Char
  deriving DecidableEq, Repr

def LineWriter.init : LineWriter := ⟨[], []⟩

/-- The child writes `chunk`: the loop prints every line the chunk completes, with the date
removed, and blocks again. -/
def LineWriter.write (w : LineWriter) (chunk : List Char) : LineWriter :=
  ⟨(readString w.fragment chunk).2,
    w.printed ++ ((readString w.fragment chunk).1.map replaceDate).flatten⟩

def LineWriter.writes (w : LineWriter) (chunks : List (List Char)) : LineWriter :=
  chunks.foldl LineWriter.write w

@[simp] theorem readString_nil (fragment : List Char) : readString fragment [] = ([], fragment) :=
  rfl

theorem readString_newline (fragment cs : List Char) :
    readString fragment ('\n' :: cs) =
      ((fragment ++ ['\n']) :: (readString [] cs).1, (readString [] cs).2) := by
  simp [readString]

theorem readString_other {c : Char} (hc : c ≠ '\n') (fragment cs : List Char) :
    readString fragment (c :: cs) = readString (fragment ++ [c]) cs := by
  simp [readString, hc]

/-- Reading `a ++ b` reads `a`, then `b` from the fragment `a` left. -/
theorem readString_append (fragment a b : List Char) :
    readString fragment (a ++ b) =
      ((readString fragment a).1 ++ (readString (readString fragment a).2 b).1,
        (readString (readString fragment a).2 b).2) := by
  induction a generalizing fragment with
  | nil => simp
  | cons c a ih =>
    by_cases hc : c = '\n'
    · subst hc
      simp only [List.cons_append, readString_newline, ih, List.cons_append]
    · simp only [List.cons_append, readString_other hc, ih]

/-- The lines and the fragment are the text cut after each newline: every line ends in its
only newline, and the fragment holds none. -/
theorem readString_spec (fragment s : List Char) (hf : '\n' ∉ fragment) :
    fragment ++ s = (readString fragment s).1.flatten ++ (readString fragment s).2 ∧
      '\n' ∉ (readString fragment s).2 ∧
      ∀ l ∈ (readString fragment s).1, ∃ body, l = body ++ ['\n'] ∧ '\n' ∉ body := by
  induction s generalizing fragment with
  | nil => simpa using hf
  | cons c s ih =>
    by_cases hc : c = '\n'
    · subst hc
      obtain ⟨h1, h2, h3⟩ := ih [] (List.not_mem_nil _)
      rw [readString_newline]
      refine ⟨by simpa using h1, h2, fun l hl ↦ ?_⟩
      rcases List.mem_cons.mp hl with rfl | hl
      · exact ⟨fragment, rfl, hf⟩
      · exact h3 l hl
    · obtain ⟨h1, h2, h3⟩ := ih (fragment ++ [c]) (by simp [hf, Ne.symm hc])
      rw [readString_other hc]
      exact ⟨by simpa using h1, h2, h3⟩

theorem dateRx_newline : ∀ a ∈ dateRx, a.matches '\n' = false := by decide

/-- A pattern none of whose atoms matches a newline, matched at the start of a line, takes a
part of the line before its newline. -/
theorem matchPrefix_line {atoms : List Atom} (ha : ∀ a ∈ atoms, a.matches '\n' = false)
    {body rest : List Char} (h : matchPrefix atoms (body ++ ['\n']) = some rest) :
    ∃ pre body', body = pre ++ body' ∧ rest = body' ++ ['\n'] := by
  induction atoms generalizing body with
  | nil => exact ⟨[], body, rfl, (Option.some.inj h).symm⟩
  | cons a as ih =>
    cases body with
    | nil => simp [matchPrefix, ha a (List.mem_cons_self a as)] at h
    | cons c body =>
      simp only [List.cons_append, matchPrefix] at h
      split at h
      · obtain ⟨pre, body', rfl, rfl⟩ := ih (fun b hb ↦ ha b (List.mem_cons_of_mem a hb)) h
        exact ⟨c :: pre, body', rfl, rfl⟩
      · cases h

/-- Removing the date takes a part of the line before its newline, and keeps the rest. -/
theorem replaceDate_line (body : List Char) :
    ∃ pre body', body = pre ++ body' ∧ replaceDate (body ++ ['\n']) = body' ++ ['\n'] := by
  unfold replaceDate
  cases h : matchPrefix dateRx (body ++ ['\n']) with
  | none => exact ⟨[], body, rfl, rfl⟩
  | some rest => simpa using matchPrefix_line dateRx_newline h

/-- Each printed line keeps the newline of the line it was read from, and takes no other. -/
theorem count_printed {lines : List (List Char)}
    (h : ∀ l ∈ lines, ∃ body, l = body ++ ['\n'] ∧ '\n' ∉ body) :
    ((lines.map replaceDate).flatten).count '\n' = lines.flatten.count '\n' := by
  induction lines with
  | nil => rfl
  | cons l ls ih =>
    obtain ⟨body, rfl, hb⟩ := h l (List.mem_cons_self l ls)
    obtain ⟨pre, body', rfl, hr⟩ := replaceDate_line body
    have hpre : pre.count '\n' = 0 :=
      List.count_eq_zero_of_not_mem fun h ↦ hb (List.mem_append_left _ h)
    simp only [List.map_cons, List.flatten_cons, List.count_append, hr, hpre, Nat.zero_add,
      ih fun l hl ↦ h l (List.mem_cons_of_mem _ hl)]

theorem write_append (w : LineWriter) (a b : List Char) :
    w.write (a ++ b) = (w.write a).write b := by
  simp [LineWriter.write, readString_append, List.append_assoc]

/-- What the writer prints depends on the concatenation of the child's writes only, not on how
it is cut into writes. -/
theorem writes_eq_write_flatten (w : LineWriter) (chunks : List (List Char)) :
    w.writes chunks = w.write chunks.flatten := by
  induction chunks generalizing w with
  | nil => simp [LineWriter.writes, LineWriter.write]
  | cons c cs ih =>
    simp only [LineWriter.writes, List.foldl_cons, List.flatten_cons, write_append] at ih ⊢
    exact ih _

/-- For every sequence of writes by the child, the writer has printed exactly the complete
lines of their concatenation, in order, each with a leading timestamp removed and with its
newline: every newline the child wrote is printed. The text after the last newline is held,
unprinted, until more text comes. -/
theorem writes_prints_complete_lines (chunks : List (List Char)) :
    ∃ (lines : List (List Char)) (rest : List Char), chunks.flatten = lines.flatten ++ rest ∧
      '\n' ∉ rest ∧ (∀ l ∈ lines, ∃ body, l = body ++ ['\n'] ∧ '\n' ∉ body) ∧
      LineWriter.init.writes chunks = ⟨rest, (lines.map replaceDate).flatten⟩ ∧
      ((lines.map replaceDate).flatten).count '\n' = chunks.flatten.count '\n' := by
  obtain ⟨h1, h2, h3⟩ := readString_spec [] chunks.flatten (List.not_mem_nil _)
  refine ⟨_, _, by simpa using h1, h2, h3,
    by simp [writes_eq_write_flatten, LineWriter.write, LineWriter.init], ?_⟩
  have hc := congrArg (List.count '\n') (show chunks.flatten = _ from by simpa using h1)
  rw [List.count_append, List.count_eq_zero_of_not_mem h2, Nat.add_zero] at hc
  rw [count_printed h3, hc]

/-- Two writes that cut a line: the timestamp of the first line goes, the second line has none,
and the unterminated tail waits. -/
example : LineWriter.init.writes
    ["2020-09-29T12:00:00.000 GET /info\nPUT".toList, " /x\npartial".toList] =
    ⟨"partial".toList, "GET /info\nPUT /x\n".toList⟩ := by decide

end AuroraIngest.Captive.LogLine
