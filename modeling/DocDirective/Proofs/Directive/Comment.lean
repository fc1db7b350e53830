import DocDirective.Processor
import DocDirective.Proofs.Directive.Scanning

/-!
# Proofs — Directive — Comment

A comment of written directives, one a line, is scanned as these directives, and their arguments
read as what they were written for.  The prose in front of a directive, the blanks behind it and
the end of the comment leave no trace.
-/

namespace DocDirective.Directive

open Arguments (isPlain escape render renderValue renderKeyed renderScalar)

/-! ### Lines -/

/-- A line of a comment with one written directive: prose, the directive, blanks, and perhaps the
end of the comment with what stands behind it. -/
structure Line where
  before     : String
  name       : String
  positional : List Value
  keyed      : Keyed Value
  written    : String
  blanks     : String := ""
  after      : Option String := none

/-- The text of a line. -/
def Line.text (l : Line) : String :=
  l.before ++ l.written ++ l.blanks ++ (match l.after with
    | some t => "*/" ++ t
    | none   => "")

/-- The directive of the line is what its name and its values are written as, and no other mark of
a directive stands on the line outside its arguments. -/
structure Line.WellFormed (l : Line) : Prop where
  before  : '!' ∉ l.before.toList
  name    : Text.isIdentifier l.name.toList = true
  written : render l.name l.positional l.keyed = .ok l.written
  blanks  : ∀ c ∈ l.blanks.toList, isGap c = true
  after   : ∀ t ∈ l.after, '!' ∉ t.toList

/-- The comment of some lines. -/
def Line.comment (ls : List Line) : String := "\n".intercalate (ls.map Line.text)

/-- The name of a directive and what its arguments are read as. -/
def readName (d : Directive) : String × Except Fault Parameters :=
  (d.name, Arguments.read (some d.name) d.arguments)

/-- What the directive of a line is to be read as. -/
def Line.expected (l : Line) : String × Except Fault Parameters :=
  (l.name, .ok ⟨l.positional, l.keyed⟩)

/-- What is written for a directive, by the text of its arguments. -/
theorem toList_of_render {name : String} {positional : List Value} {keyed : Keyed Value}
    {r : String} (h : render name positional keyed = .ok r) :
    ∃ args : String, (args.toList = [] ∨ Solid args.toList) ∧
      r.toList = '!' :: (name.toList ++ if args.toList = [] then [] else ' ' :: args.toList) ∧
      (args.length + 2 ≤ 10 ^ Overlong.limit →
        Arguments.evaluate args = .ok ⟨positional, keyed⟩) := by
  obtain ⟨ps, ks, hp, hk, rfl⟩ := Arguments.render_eq h
  refine ⟨", ".intercalate (ps ++ ks), ?_, ?_, Arguments.evaluate_intercalate hp hk⟩
  · by_cases hnil : ps ++ ks = []
    · exact .inl (by simp [hnil])
    · exact .inr (solid_arguments hp hk hnil)
  · by_cases hnil : ps ++ ks = []
    · simp [hnil]
    · obtain ⟨c, cs, hcs, -⟩ := (solid_arguments hp hk hnil).head
      rw [if_neg (by simpa using hnil), hcs, if_neg (List.cons_ne_nil c cs), ← hcs]
      simp

/-- What stands behind a directive's blanks on its line, and what stands behind the line. -/
def Line.stop (l : Line) (rest : List Char) : List Char :=
  (match l.after with
    | some t => '*' :: '/' :: t.toList
    | none   => []) ++ rest

theorem stops_stop (l : Line) {rest : List Char} (h : Stops rest) : Stops (l.stop rest) := by
  unfold Line.stop
  cases l.after with
  | some t => exact .mark _
  | none => exact h

theorem scanFrom_stop {l : Line} (h : l.WellFormed) (offset : Nat) (rest : List Char) :
    ∃ next, scanFrom offset (l.stop rest) = scanFrom next rest := by
  unfold Line.stop
  cases ha : l.after with
  | some t => exact ⟨_, scanFrom_skip offset rest (by simpa using h.after t ha)⟩
  | none => exact ⟨offset, rfl⟩

theorem toList_text (l : Line) (rest : List Char) :
    l.text.toList ++ rest
      = l.before.toList ++ (l.written.toList ++ (l.blanks.toList ++ l.stop rest)) := by
  unfold Line.text Line.stop
  cases l.after <;> simp

theorem length_le_text {l : Line} (h : l.WellFormed) {args : List Char}
    (hwritten : l.written.toList
      = '!' :: (l.name.toList ++ if args = [] then [] else ' ' :: args)) :
    args.length + 2 ≤ l.text.length := by
  have hname : 0 < l.name.toList.length := by
    refine List.length_pos_iff.2 fun hnil => ?_
    have := h.name
    rw [hnil] at this
    cases this
  have htext := congrArg List.length (toList_text l [])
  rw [List.append_nil, hwritten, String.length_toList] at htext
  rw [htext]
  split <;> simp_all <;> omega

/-- A line is scanned as its directive, and the scan goes on behind the line. -/
theorem scanFrom_line {l : Line} (h : l.WellFormed) (offset : Nat) {rest : List Char}
    (hrest : Stops rest) (hn : l.text.length ≤ 10 ^ Overlong.limit) :
    ∃ d next, scanFrom offset (l.text.toList ++ rest) = d :: scanFrom next rest ∧
      readName d = l.expected := by
  obtain ⟨args, hargs, hwritten, heval⟩ := toList_of_render h.written
  obtain ⟨next, hscan⟩ := scanFrom_written (offset + l.before.toList.length) h.name hargs h.blanks
    (stops_stop l hrest)
  obtain ⟨last, hlast⟩ := scanFrom_stop h next rest
  refine ⟨⟨String.ofList l.name.toList, String.ofList args.toList,
    offset + l.before.toList.length⟩, last, ?_, ?_⟩
  · rw [toList_text, scanFrom_skip offset _ h.before, hwritten, ← hlast, ← hscan]
    simp
  · have heval := heval ((length_le_text h hwritten).trans hn)
    simp only [readName, Line.expected, Arguments.read, String.ofList_toList, heval]

/-- A comment is its first line, and behind it nothing or a line end and the other lines. -/
theorem toList_comment (l : Line) (ls : List Line) :
    ∃ rest, (Line.comment (l :: ls)).toList = l.text.toList ++ rest ∧
      (ls = [] ∧ rest = [] ∨ rest = '\n' :: (Line.comment ls).toList) := by
  cases ls with
  | nil => exact ⟨[], by simp [Line.comment], .inl ⟨rfl, rfl⟩⟩
  | cons m ms =>
    exact ⟨'\n' :: (Line.comment (m :: ms)).toList, by simp [Line.comment], .inr rfl⟩

theorem scanFrom_comment {ls : List Line} (h : ∀ l ∈ ls, l.WellFormed)
    (hn : (Line.comment ls).toList.length ≤ 10 ^ Overlong.limit) (offset : Nat) :
    (scanFrom offset (Line.comment ls).toList).map readName = ls.map Line.expected := by
  induction ls generalizing offset with
  | nil =>
    rw [Line.comment, List.map_nil, String.intercalate_nil, String.toList_empty, scanFrom]
    rfl
  | cons l ls ih =>
    rw [List.forall_mem_cons] at h
    obtain ⟨rest, htext, hrest⟩ := toList_comment l ls
    rw [htext, List.length_append, String.length_toList] at hn
    have hstop : Stops rest := by
      rcases hrest with ⟨-, rfl⟩ | rfl
      · exact .text
      · exact .line _
    obtain ⟨d, next, hscan, hd⟩ := scanFrom_line h.1 offset hstop ((Nat.le_add_right ..).trans hn)
    rw [htext, hscan, List.map_cons, hd, List.map_cons]
    congr 1
    -- behind the line: the end, or a line end that is no mark
    rcases hrest with ⟨rfl, rfl⟩ | rfl
    · rw [scanFrom]
      rfl
    · rw [scanFrom, if_neg (by decide)]
      refine ih h.2 ?_ _
      rw [List.length_cons] at hn
      omega

/-- **A comment of written directives is scanned as these directives**, in order and with their
names, and the arguments of each are read as the values that it was written with.  No text in
memory comes near the bound on the length; beyond it, the number of a literal could not be read. -/
theorem scan_comment {ls : List Line} (h : ∀ l ∈ ls, l.WellFormed)
    (hn : (Line.comment ls).length ≤ 10 ^ Overlong.limit) :
    (scan (Line.comment ls)).map readName = ls.map Line.expected :=
  scanFrom_comment h (by rwa [String.length_toList]) 0

/-- Two lines: one with a quote, marks and an exclamation mark inside a literal, and one with a
list and the end of the comment. -/
def sampleLines : List Line := [
  ⟨" * ", "Route", [.text "GET", .text "it's, (!x)"], .ofList [("name", .bool true)],
    "!Route 'GET', 'it\\'s, (!x)', name: true", " ", none⟩,
  ⟨"", "Column", [.list [.int (-3), .text ""]], .empty, "!Column (-3, '')", "", some " end"⟩]

theorem scan_comment_sampleLines :
    (∀ l ∈ sampleLines, l.WellFormed) ∧
      (Line.comment sampleLines).length ≤ 10 ^ Overlong.limit ∧
      (scan (Line.comment sampleLines)).map readName = sampleLines.map Line.expected := by
  have hwell : ∀ l ∈ sampleLines, l.WellFormed := by
    intro l hl
    simp only [sampleLines, List.mem_cons, List.not_mem_nil, or_false] at hl
    rcases hl with rfl | rfl <;>
      exact ⟨by decide, by decide, rfl, (List.all_eq_true (p := isGap)).1 (by decide), by decide⟩
  have hlen : (Line.comment sampleLines).length ≤ 10 ^ Overlong.limit :=
    (show _ ≤ 10 ^ 2 by decide).trans (Nat.pow_le_pow_right (by decide) (by decide))
  exact ⟨hwell, hlen, scan_comment hwell hlen⟩

end DocDirective.Directive
