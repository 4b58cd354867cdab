/-!
# White space

Three sets of blank characters are in use. The markup trims and splits text at Unicode white space
(`isBlank`), ends a tag name at ASCII white space (`isTagBlank`), and lets the four plain blanks of
JSON stand between the parts of an attribute or a template tag (`isPlainBlank`).

* `isBlank_of_isWhitespace`: every white space character of the core library is blank.
* `dropEndWhile_append_of_last`: what `dropEndWhile` keeps ends where the class ends.
-/

namespace DashboardMarkup.Text

/-- Unicode white space: the property `White_Space`. -/
def isBlank (c : Char) : Bool :=
  let n := c.toNat
  (9 ≤ n && n ≤ 13) || n == 0x20 || n == 0x85 || n == 0xA0 || n == 0x1680 ||
    (0x2000 ≤ n && n ≤ 0x200A) || n == 0x2028 || n == 0x2029 || n == 0x202F || n == 0x205F ||
    n == 0x3000

/-- Blanks that end a tag name: space, tab, line feed, form feed and carriage return. -/
def isTagBlank (c : Char) : Bool :=
  c == ' ' || c == '\t' || c == '\n' || c == '\x0c' || c == '\r'

/-- Blanks that may stand between the parts of a tag: space, tab, line feed, carriage return. -/
def isPlainBlank (c : Char) : Bool :=
  c == ' ' || c == '\t' || c == '\n' || c == '\r'

theorem isBlank_of_isWhitespace {c : Char} (h : c.isWhitespace = true) : isBlank c = true := by
  simp only [Char.isWhitespace, Bool.or_eq_true, decide_eq_true_eq, or_assoc] at h
  rcases h with rfl | rfl | rfl | rfl <;> rfl

theorem isTagBlank_of_isPlainBlank {c : Char} (h : isPlainBlank c = true) :
    isTagBlank c = true := by
  simp only [isPlainBlank, isTagBlank, Bool.or_eq_true] at h ⊢
  rcases h with ((h | h) | h) | h <;> simp [h]

theorem isBlank_of_isTagBlank {c : Char} (h : isTagBlank c = true) : isBlank c = true := by
  simp only [isTagBlank, Bool.or_eq_true, beq_iff_eq, or_assoc] at h
  rcases h with rfl | rfl | rfl | rfl | rfl <;> rfl

/-! ## Trimming -/

/-- Drops the longest run at the end whose characters all satisfy `p`. -/
def dropEndWhile (p : Char → Bool) (text : List Char) : List Char :=
  (text.reverse.dropWhile p).reverse

/-- The text without the white space before it. -/
def trimStart (text : List Char) : List Char :=
  text.dropWhile isBlank

/-- The text without the white space after it. -/
def trimEnd (text : List Char) : List Char :=
  dropEndWhile isBlank text

/-- The text without the white space around it. -/
def trim (text : List Char) : List Char :=
  trimEnd (trimStart text)

/-- The words of a text: its longest runs without white space. -/
def words (text : List Char) : List (List Char) :=
  (text.splitOnP isBlank).filter (!·.isEmpty)

/-- The words of a text with one space between neighbours. -/
def squeeze (text : List Char) : List Char :=
  [' '].intercalate (words text)

theorem dropEndWhile_append_of_last {p : Char → Bool} (text : List Char) {c : Char}
    (h : p c = false) : dropEndWhile p (text ++ [c]) = text ++ [c] := by
  simp [dropEndWhile, h]

theorem length_dropEndWhile_le (p : Char → Bool) (text : List Char) :
    (dropEndWhile p text).length ≤ text.length := by
  have := (List.dropWhile_sublist (l := text.reverse) p).length_le
  simpa [dropEndWhile] using this

theorem length_trimStart_le (text : List Char) : (trimStart text).length ≤ text.length :=
  (List.dropWhile_sublist _).length_le

end DashboardMarkup.Text

namespace DashboardMarkup

/-- A string without the white space around it. -/
def trimmed (s : String) : String :=
  String.ofList (Text.trim s.toList)

end DashboardMarkup
