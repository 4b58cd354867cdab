import DashboardMarkup.Proofs.Markup.Free
import DashboardMarkup.Proofs.Markup.Moved

/-!
# Elements as they are written

An element is written as a tag that closes itself, or as a pair of tags around any text. The text need be no tree.
It may hold open tags without close tags, a `<` that begins no tag and elements of the same name, as long as the
close tag of the element is the one at its end.

* `WrittenElement.Whole`: what a search needs to know of an element that it is after.
* `Whole.scan`: a search finds it where it stands, whatever follows.
* `Whole.sited`: it is found in its own text.
-/

namespace DashboardMarkup.Markup

open Text

/-- An element as it is written: a tag that closes itself, or a pair of tags around any text. -/
inductive WrittenElement
  | single (tag : WrittenTag) (gap : List Char)
  | paired (tag : WrittenTag) (inner : List Char) (close : WrittenClose)
  deriving DecidableEq, Repr

/-- A search in a whole text. -/
theorem find_whole (text : List Char) (names : List String) :
    find text ⟨0, size text⟩ names = scan (size text) names text := by
  have hfind := find_append [] text [] names
  simpa only [List.append_nil, List.nil_append, size_nil, Nat.zero_add] using hfind

namespace WrittenElement

/-- The open tag of an element. -/
def tag : WrittenElement → WrittenTag
  | single tag _ => tag
  | paired tag _ _ => tag

/-- The text of an element. -/
def text : WrittenElement → List Char
  | single tag gap => tag.text ++ ('/' :: gap ++ ['>'])
  | paired tag inner close => tag.text ++ '>' :: (inner ++ close.text)

/-- An element of a name is closed: by its own tag, or by the close tag at its end and by none before. There is no
comment between its tags. -/
def Closed (name : String) : WrittenElement → Prop
  | single _ gap => ∀ c ∈ gap, isTagBlank c = true
  | paired _ inner close =>
    close.Readable ∧ FreeOf [] (inner ++ close.text) ∧
      findClose (size (inner ++ close.text)) name 0 (inner ++ close.text) = .ok (some (close.text, []))

/-- The element that a search reports under a name, at an offset. -/
def element (name : String) (start : Nat) : WrittenElement → Element
  | single tag gap => ⟨name, start, start + size (single tag gap).text, tag.meant, .selfClosing⟩
  | paired tag inner close =>
    let openEnd := start + size (tag.text ++ ['>'])
    ⟨name, start, openEnd, tag.meant,
      .paired ⟨openEnd, openEnd + size inner⟩ (openEnd + size inner + size close.text)⟩

/-- **An element of a name with all its parts**, which are what they should be. -/
structure Whole (name : String) (v : WrittenElement) : Prop where
  readable : v.tag.Readable
  named : lower v.tag.name = lower name.toList
  closed : v.Closed name

variable {v : WrittenElement} {name : String}

@[simp] theorem name_element (start : Nat) : (v.element name start).name = name := by
  cases v <;> rfl

@[simp] theorem attrs_element (start : Nat) : (v.element name start).attrs = v.tag.meant := by
  cases v <;> rfl

@[simp] theorem start_element (start : Nat) : (v.element name start).start = start := by
  cases v <;> rfl

theorem closed_element (start : Nat) : (v.element name start).closed = true := by
  cases v <;> rfl

/-- Further on it is the same element. -/
theorem moved_element (k start : Nat) : (v.element name start).moved k = v.element name (k + start) := by
  cases v <;> simp only [element, Element.moved, Body.moved, Span.moved, Nat.add_assoc]

/-- An element begins with a `<`. -/
theorem head?_text (v : WrittenElement) : v.text.head? = some '<' := by
  cases v <;> rfl

/-- A text that ends as a close tag does. -/
theorem getLast?_append_close (front : List Char) (close : WrittenClose) :
    (front ++ close.text).getLast? = some '>' := by
  have hsplit : front ++ close.text = (front ++ '<' :: '/' :: (close.name ++ close.gap)) ++ ['>'] := by
    simp [WrittenClose.text]
  rw [hsplit, List.getLast?_concat]

/-- An element ends with a `>`. -/
theorem getLast?_text (v : WrittenElement) : v.text.getLast? = some '>' := by
  cases v with
  | single tag gap =>
    have hsplit : (single tag gap).text = (tag.text ++ '/' :: gap) ++ ['>'] := by simp [text]
    rw [hsplit, List.getLast?_concat]
  | paired tag inner close =>
    have hsplit : (paired tag inner close).text = (tag.text ++ '>' :: inner) ++ close.text := by simp [text]
    rw [hsplit, getLast?_append_close]

theorem finished_text (v : WrittenElement) : Finished v.text :=
  finished_of_getLast? v.getLast?_text

theorem seam_before (front : List Char) (v : WrittenElement) (after : List Char) : Seam front (v.text ++ after) :=
  Or.inr (Or.inl (by rw [List.head?_append, head?_text]; rfl))

theorem seam_behind (v : WrittenElement) (after : List Char) : Seam v.text after :=
  Or.inr (Or.inr v.finished_text)

namespace Whole

variable {names : List String} {start : Nat}

/-- **A search finds an element where it stands**, whatever follows. -/
theorem scan (h : v.Whole name) (hnames : ∀ n ∈ names, Unbroken n) (hname : v.tag.nameIn? names = some name)
    (after : List Char) :
    Markup.scan (start + size (v.text ++ after)) names (v.text ++ after) =
      (Markup.scan (start + size (v.text ++ after)) names after).map (v.element name start :: ·) := by
  have hsearch : ∀ n ∈ names, Searchable n := fun n hn => (hnames n hn).1
  have hmem : name ∈ names := List.mem_of_find?_eq_some hname
  cases v with
  | single tag gap =>
    have htag : tag.Readable := h.readable
    have hsplit : (single tag gap).text ++ after = tag.text ++ ('/' :: gap ++ '>' :: after) := by
      simp [text]
    have hopening := @opening?_tag names tag htag hsearch ('/' :: gap ++ '>' :: after) rfl
    rw [show tag.nameIn? names = some name from hname] at hopening
    have hscan := @scan_single (start + size ((single tag gap).text ++ after)) names name _ _ _ _
      (comment?_tag htag _) hopening (finish?_single htag.delimited h.closed after) rfl
    rw [← hsplit] at hscan
    rw [hscan, Nat.add_sub_cancel, size_append, ← Nat.add_assoc, Nat.add_sub_cancel]
    rfl
  | paired tag inner close =>
    have htag : tag.Readable := h.readable
    have hsplit : (paired tag inner close).text ++ after = tag.text ++ '>' :: (inner ++ close.text ++ after) := by
      simp [text]
    have hopening := @opening?_tag names tag htag hsearch ('>' :: (inner ++ close.text ++ after)) rfl
    rw [show tag.nameIn? names = some name from hname] at hopening
    have hfinished : Finished (inner ++ close.text) := finished_of_getLast? (getLast?_append_close inner close)
    obtain ⟨-, hfree, hfound⟩ := h.closed
    have hclose := findClose_behind (hnames name hmem) hfree hfinished hfound
      (start + size ((paired tag inner close).text ++ after)) after
    have hscan := @scan_paired (start + size ((paired tag inner close).text ++ after)) names name _ _ _ _ _ _
      (comment?_tag htag _) hopening (finish?_paired htag.delimited _) rfl hclose
    rw [← hsplit] at hscan
    have hopen : start + size ((paired tag inner close).text ++ after) - size (inner ++ close.text ++ after) =
        start + size (tag.text ++ ['>']) := by
      simp only [text, size_append, size_cons, size_nil]
      omega
    have hinner : start + size ((paired tag inner close).text ++ after) - size (close.text ++ after) =
        start + size (tag.text ++ ['>']) + size inner := by
      simp only [text, size_append, size_cons, size_nil]
      omega
    have hstop : start + size ((paired tag inner close).text ++ after) - size ([] ++ after) =
        start + size (tag.text ++ ['>']) + size inner + size close.text := by
      simp only [text, size_append, size_cons, size_nil]
      omega
    rw [hscan, Nat.add_sub_cancel, hopen, hinner, hstop, List.nil_append]
    rfl

/-- It is all that is found in its own text. -/
theorem find_text (h : v.Whole name) (hnames : ∀ n ∈ names, Unbroken n) (hname : v.tag.nameIn? names = some name) :
    find v.text ⟨0, size v.text⟩ names = .ok [v.element name 0] := by
  have hscan := @scan v name names 0 h hnames hname []
  simp only [List.append_nil, Nat.zero_add] at hscan
  rw [find_whole, hscan, scan_nil]
  rfl

theorem sited (h : v.Whole name) (hname : Unbroken name) : (v.element name 0).Sited v.text := by
  have hnameIn : v.tag.nameIn? [name] = some name := by
    simp [WrittenTag.nameIn?, h.named]
  exact (found_of_find (Span.fits_whole v.text) (h.find_text (by simpa using hname) hnameIn)).sited _
    List.mem_cons_self

end Whole

/-- A pair of tags around a text that is free of their name. -/
theorem closed_paired {tag : WrittenTag} {inner : List Char} {close : WrittenClose} (hname : Unbroken name)
    (hclose : close.Readable) (hsame : lower close.name = lower name.toList) (hinner : FreeOf [name] inner) :
    (paired tag inner close).Closed name := by
  have hseam : Seam inner close.text := Or.inr (Or.inl rfl)
  have hfree : FreeOf [] inner := hinner.mono (by simp)
  refine ⟨hclose, hfree.append (by simp) (.close hclose (by simp)) hseam, ?_⟩
  rw [hinner.findClose hname hseam]
  have hfound := @findClose_close (size (inner ++ close.text)) name close hclose hname.1 hsame []
  rwa [List.append_nil] at hfound

/-- A pair of tags of another name around a text that is free of some tags. -/
theorem free_paired {names : List String} {tag : WrittenTag} {inner : List Char} {close : WrittenClose}
    (hnames : ∀ n ∈ names, Unbroken n ∧ lower name.toList ≠ lower n.toList) (htag : tag.Readable) (hplain : tag.Plain)
    (hnamed : lower tag.name = lower name.toList) (hclose : close.Readable)
    (hsame : lower close.name = lower name.toList) (hinner : FreeOf names inner) :
    FreeOf names (paired tag inner close).text := by
  have hunbroken : ∀ n ∈ names, Unbroken n := fun n hn => (hnames n hn).1
  have hother : ∀ n ∈ names, Searchable n ∧ lower name.toList ≠ lower n.toList := fun n hn =>
    ⟨(hnames n hn).1.1, (hnames n hn).2⟩
  have hopen : FreeOf names (tag.text ++ ['>']) := .tag htag hplain (by rwa [hnamed])
  have hend : FreeOf names close.text := .close hclose (by rwa [hsame])
  have hsplit : (paired tag inner close).text = (tag.text ++ ['>']) ++ (inner ++ close.text) := by simp [text]
  rw [hsplit]
  exact hopen.append hunbroken (hinner.append hunbroken hend (Or.inr (Or.inl rfl)))
    (Or.inr (Or.inr (finished_of_getLast? List.getLast?_concat)))

/-- A tag is found by its name among the first of some names that is the same. -/
theorem nameIn?_of_named {t : WrittenTag} {names : List String} (h : lower t.name = lower name.toList)
    (hfirst : (names.find? fun n => lower name.toList == lower n.toList) = some name) : t.nameIn? names = some name := by
  unfold WrittenTag.nameIn?
  rw [h, hfirst]

end WrittenElement

/-! ## Texts around an element -/

/-- The span between the tags of a pair that begins at an offset. -/
def inside (start : Nat) (tag : WrittenTag) (inner : List Char) : Span :=
  ⟨start + size (tag.text ++ ['>']), start + size (tag.text ++ ['>']) + size inner⟩

/-- The text of an element between two others, or these alone. -/
def around (lead : List Char) (v? : Option WrittenElement) (tail : List Char) : List Char :=
  lead ++ ((v?.map WrittenElement.text).getD [] ++ tail)

/-- Two texts are free of some tags, with an element between them. Without one they are read as one text. -/
structure Surround (names : List String) (lead : List Char) (v? : Option WrittenElement) (tail : List Char) : Prop where
  ahead : FreeOf names lead
  behind : FreeOf names tail
  joined : v? = none → FreeOf names (lead ++ tail)

namespace Surround

variable {names : List String} {lead tail : List Char} {v? : Option WrittenElement} {name : String}

theorem mono {more : List String} (h : Surround more lead v? tail) (hsub : ∀ n ∈ names, n ∈ more) :
    Surround names lead v? tail :=
  ⟨h.ahead.mono hsub, h.behind.mono hsub, fun hv => (h.joined hv).mono hsub⟩

/-- The whole is free of the tags that the element does not hold. -/
theorem free (h : Surround names lead v? tail) (hnames : ∀ n ∈ names, Unbroken n) (hv : ∀ v ∈ v?, FreeOf names v.text) :
    FreeOf names (around lead v? tail) := by
  cases v? with
  | none => exact h.joined rfl
  | some v =>
    have hrest := (hv v rfl).append hnames h.behind (v.seam_behind tail)
    exact h.ahead.append hnames hrest (v.seam_before lead tail)

/-- **A search finds the element and nothing else.** -/
theorem find (h : Surround names lead v? tail) (hnames : ∀ n ∈ names, Unbroken n)
    (hv : ∀ v ∈ v?, v.Whole name ∧ v.tag.nameIn? names = some name) (before behind : List Char) :
    Markup.find (before ++ (around lead v? tail ++ behind))
      ⟨size before, size before + size (around lead v? tail)⟩ names =
        .ok (v?.toList.map (WrittenElement.element name (size before + size lead))) := by
  rw [find_append]
  cases v? with
  | none => exact (h.joined rfl).scan_self hnames
  | some v =>
    obtain ⟨hwhole, hname⟩ := hv v rfl
    have hlimit : size before + size (lead ++ (v.text ++ tail)) = (size before + size lead) + size (v.text ++ tail) := by
      simp only [size_append, Nat.add_assoc]
    show scan (size before + size (lead ++ (v.text ++ tail))) names (lead ++ (v.text ++ tail)) = _
    rw [h.ahead.scan hnames (v.seam_before lead tail), hlimit, hwhole.scan hnames hname, h.behind.scan_self hnames]
    rfl

end Surround

/-! ## Between the tags of a pair -/

section

variable {names : List String} {tag : WrittenTag} {inner : List Char} {close : WrittenClose}

/-- The content of a pair. -/
theorem content_paired (name : String) (start : Nat) :
    ((WrittenElement.paired tag inner close).element name start).content = inside start tag inner :=
  rfl

/-- The text of a pair. -/
theorem innerText_paired (name : String) :
    ((WrittenElement.paired tag inner close).element name 0).innerText (WrittenElement.paired tag inner close).text =
      .ok inner := by
  refine Span.text_eq_ok.mpr (Span.cut?_eq_some.mpr ⟨tag.text ++ ['>'], close.text, ?_, ?_, ?_⟩)
  · simp [WrittenElement.text]
  · exact (Nat.zero_add _).symm
  · exact (congrArg (· + size inner) (Nat.zero_add _)).symm

/-- A search between the tags of a pair is one of the text there. -/
theorem find_inside (names : List String) (before behind : List Char) :
    find (before ++ ((WrittenElement.paired tag inner close).text ++ behind)) (inside (size before) tag inner) names =
      find ((before ++ (tag.text ++ ['>'])) ++ (inner ++ (close.text ++ behind)))
        ⟨size (before ++ (tag.text ++ ['>'])), size (before ++ (tag.text ++ ['>'])) + size inner⟩ names := by
  have hsplit : before ++ ((WrittenElement.paired tag inner close).text ++ behind) =
      (before ++ (tag.text ++ ['>'])) ++ (inner ++ (close.text ++ behind)) := by
    simp [WrittenElement.text]
  rw [hsplit, size_append before]
  rfl

theorem find_inside_of_free (tag : WrittenTag) (close : WrittenClose) (hnames : ∀ n ∈ names, Unbroken n)
    (h : FreeOf names inner) (before behind : List Char) :
    find (before ++ ((WrittenElement.paired tag inner close).text ++ behind)) (inside (size before) tag inner) names =
      .ok [] := by
  rw [find_inside, find_append, h.scan_self hnames]

/-- **The element between the tags of a pair** is found, and nothing else. -/
theorem Surround.find_inside {lead tail : List Char} {v? : Option WrittenElement} {name : String}
    (h : Surround names lead v? tail) (tag : WrittenTag) (close : WrittenClose) (hnames : ∀ n ∈ names, Unbroken n)
    (hv : ∀ v ∈ v?, v.Whole name ∧ v.tag.nameIn? names = some name) (before behind : List Char) :
    Markup.find (before ++ ((WrittenElement.paired tag (around lead v? tail) close).text ++ behind))
      (inside (size before) tag (around lead v? tail)) names =
        .ok (v?.toList.map (WrittenElement.element name (size (before ++ (tag.text ++ ['>'])) + size lead))) := by
  rw [Markup.find_inside, h.find hnames hv]

end

/-! ## Texts in which elements end -/

/-- **A text in which all ends that begins in it**: there is no comment in it, every `<` has a `>` behind it, and the
elements of some names that a search finds in it are closed. -/
structure Complete (names : List String) (text : List Char) (found : List Element) : Prop where
  free : FreeOf [] text
  finished : Finished text
  find : Markup.find text ⟨0, size text⟩ names = .ok found
  closed : ∀ e ∈ found, e.closed = true

/-- **Behind a complete text** a search finds what it finds there anyway. -/
theorem Complete.find_append {names : List String} {text : List Char} {found : List Element}
    (h : Complete names text found) (hnames : ∀ n ∈ names, Unbroken n) (after : List Char) :
    Markup.find (text ++ after) ⟨0, size (text ++ after)⟩ names =
      (movedAll (size text) (Markup.find after ⟨0, size after⟩ names)).map (found ++ ·) := by
  have hscan := h.find
  rw [find_whole] at hscan
  rw [find_whole, find_whole, size_append, scan_behind hnames h.free h.finished hscan h.closed after]
  exact congrArg _ (scan_moved (size text) (Nat.le_refl _))

/-- An element is a complete text. -/
theorem WrittenElement.Whole.complete {v : WrittenElement} {name : String} (h : v.Whole name) {names : List String}
    (hnames : ∀ n ∈ names, Unbroken n) (hname : v.tag.nameIn? names = some name) (hfree : FreeOf [] v.text) :
    Complete names v.text [v.element name 0] :=
  ⟨hfree, v.finished_text, h.find_text hnames hname, by simpa using v.closed_element 0⟩

end DashboardMarkup.Markup
