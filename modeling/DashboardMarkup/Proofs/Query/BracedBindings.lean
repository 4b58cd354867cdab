import DashboardMarkup.Proofs.Markup.RoundTrip
import DashboardMarkup.Proofs.Query.Bindings
import DashboardMarkup.Proofs.Template.Untagged
import DashboardMarkup.Proofs.Text.Words

/-!
# Bindings in braces and in attributes

The query of an article stands between double braces in a text, that of any other widget in the attributes of a tag.
Two readers take them apart: one cuts at semicolons and at the first colon, and takes quotes off; the other one looks
for values in quotes, and puts characters in place of their names. As long as no binding has a mark of the first
reader in it, both find the same bindings, in order and with repetitions, and so the same query.

* `bindings_braced`: bindings between double braces are read.
* `read_attributeList`: bindings that are written as attributes are read.
* `ofBindings_braced`: both give the same data source.
-/

namespace DashboardMarkup.DataSource

open Template (Lacks cut?_pair)
open Text

/-! ## The two spellings -/

/-- A binding as it stands between braces. -/
def pairText (b : Attribute) : List Char :=
  b.name.toList ++ ':' :: ' ' :: b.value.toList

/-- Bindings between double braces. -/
def braced (pairs : Attributes) : List Char :=
  "\x7b\x7b ".toList ++ "; ".toList.intercalate (pairs.map pairText) ++ " \x7d\x7d".toList

/-- A binding as an attribute, with its value escaped and in double quotes. -/
def attributeText (b : Attribute) : List Char :=
  b.name.toList ++ '=' :: '"' :: (Entity.escape b.value.toList ++ ['"'])

/-- Bindings as the attributes of a tag. -/
def attributeList (pairs : Attributes) : List Char :=
  [' '].intercalate (pairs.map attributeText)

/-- **A binding that can be written both ways.** Its key is the name of an attribute; what ends a key, a binding or
all of them is not in it; its value has no white space and no pair of quotes around it. -/
structure Bindable (b : Attribute) : Prop where
  named : b.Named
  key_colon : ':' ∉ b.name.toList
  key_semicolon : ';' ∉ b.name.toList
  key_braces : Lacks '\x7d' '\x7d' b.name.toList
  value_semicolon : ';' ∉ b.value.toList
  value_braces : Lacks '\x7d' '\x7d' b.value.toList
  value_trimmed : trimmed b.value = b.value
  value_unquoted : Filter.isQuoted b.value.toList = false

instance (b : Attribute) : Decidable (Bindable b) :=
  decidable_of_iff
    (b.Named ∧ ':' ∉ b.name.toList ∧ ';' ∉ b.name.toList ∧ Lacks '\x7d' '\x7d' b.name.toList ∧
      ';' ∉ b.value.toList ∧ Lacks '\x7d' '\x7d' b.value.toList ∧ trimmed b.value = b.value ∧
      Filter.isQuoted b.value.toList = false)
    ⟨fun ⟨h1, h2, h3, h4, h5, h6, h7, h8⟩ => ⟨h1, h2, h3, h4, h5, h6, h7, h8⟩,
      fun h => ⟨h.1, h.2, h.3, h.4, h.5, h.6, h.7, h.8⟩⟩

variable {b : Attribute} {pairs : Attributes} {blanks : List Char}

/-! ## Bindings between braces -/

/-- The binding that a text with a colon spells. -/
def binding? (pair : List Char) : Option Attribute := do
  let (key, value) ← cutAt? (· == ':') pair
  let key ← nonempty? (String.ofList (trim key))
  return ⟨key, String.ofList (Filter.unquote value)⟩

/-- The bindings of a text are between its first double braces and those that close them. -/
theorem bindings_of_cut? {front body behind text after : List Char}
    (hopen : cut? ['\x7b', '\x7b'] text = some (front, behind))
    (hclose : cut? ['\x7d', '\x7d'] behind = some (body, after)) :
    bindings text = (body.splitOn ';').filterMap binding? := by
  unfold bindings
  rw [hopen]
  simp only [hclose]
  rfl

/-- **A binding is cut at its first colon**, whatever its value is. -/
theorem binding?_pairText (h : Bindable b) (hblanks : ∀ c ∈ blanks, isBlank c = true) :
    binding? (' ' :: (pairText b ++ blanks)) = some b := by
  have hcut : cutAt? (· == ':') (' ' :: (pairText b ++ blanks)) =
      some (' ' :: b.name.toList, ' ' :: (b.value.toList ++ blanks)) := by
    have hfront : ∀ c ∈ ' ' :: b.name.toList, (c == ':') = false := by
      refine List.forall_mem_cons.mpr ⟨by decide, fun c hc => ?_⟩
      rw [beq_eq_false_iff_ne]
      rintro rfl
      exact h.key_colon hc
    have hsplit : ' ' :: (pairText b ++ blanks) =
        (' ' :: b.name.toList) ++ ':' :: (' ' :: (b.value.toList ++ blanks)) := by
      simp [pairText]
    rw [hsplit]
    exact cutAt?_append hfront (by decide)
  have hkey : trim (' ' :: b.name.toList) = b.name.toList := by
    rw [trim_space]
    exact trim_of_no_blank fun c hc => Markup.isBlank_of_isNameChar (h.named.2 c hc)
  have hvalue : trim (' ' :: (b.value.toList ++ blanks)) = b.value.toList := by
    have htrimmed := congrArg String.toList h.value_trimmed
    unfold trimmed at htrimmed
    rw [String.toList_ofList] at htrimmed
    rw [trim_space, trim_append_blank hblanks, htrimmed]
  have hunquote : Filter.unquote (' ' :: (b.value.toList ++ blanks)) = b.value.toList := by
    unfold Filter.unquote
    rw [hvalue, if_neg (by simp [h.value_unquoted])]
  have hnonempty : nonempty? b.name = some b.name := by
    unfold nonempty?
    rw [if_neg (by simpa using h.named.1)]
  unfold binding?
  simp only [hcut, hkey, hunquote, String.ofList_toList, hnonempty, Option.bind_eq_bind, Option.bind_some,
    Option.pure_def]

theorem semicolon_not_mem_pairText (h : Bindable b) : ';' ∉ pairText b := by
  simp [pairText, h.key_semicolon, h.value_semicolon]

/-- **Bindings are cut at the semicolons between them.** -/
theorem filterMap_binding?_splitOn (hne : pairs ≠ []) (h : ∀ b ∈ pairs, Bindable b) :
    ((' ' :: ("; ".toList.intercalate (pairs.map pairText) ++ [' '])).splitOn ';').filterMap binding? = pairs := by
  induction pairs with
  | nil => exact absurd rfl hne
  | cons b pairs ih =>
    obtain ⟨hb, hpairs⟩ := List.forall_mem_cons.mp h
    have hpair := semicolon_not_mem_pairText hb
    cases pairs with
    | nil =>
      have hone : (' ' :: (pairText b ++ [' '])).splitOn ';' = [' ' :: (pairText b ++ [' '])] :=
        List.splitOn_eq_singleton (by simpa using hpair)
      have hread := @binding?_pairText b [' '] hb (by decide)
      simp [hone, hread]
    | cons next pairs =>
      have hrest := ih (List.cons_ne_nil _ _) hpairs
      have hsplit : ' ' :: ("; ".toList.intercalate ((b :: next :: pairs).map pairText) ++ [' ']) =
          (' ' :: (pairText b ++ [])) ++
            ';' :: (' ' :: ("; ".toList.intercalate ((next :: pairs).map pairText) ++ [' '])) := by
        simp [List.intercalate_cons_cons]
      have hfirst : (' ' :: (pairText b ++ [])).splitOn ';' = [' ' :: (pairText b ++ [])] :=
        List.splitOn_eq_singleton (by simpa using hpair)
      have hread := @binding?_pairText b [] hb (by simp)
      rw [hsplit, List.splitOn_append_cons_self, hfirst, List.singleton_append, List.filterMap_cons_some hread, hrest]

/-- Nothing closes the braces before their end: a brace that a binding ends with has a mark behind it. -/
theorem lacks_body (h : ∀ b ∈ pairs, Bindable b) :
    Lacks '\x7d' '\x7d' (' ' :: ("; ".toList.intercalate (pairs.map pairText) ++ " \x7d".toList)) := by
  have hjoined : Lacks '\x7d' '\x7d' ("; ".toList.intercalate (pairs.map pairText)) := by
    induction pairs with
    | nil => exact (by decide : Lacks '\x7d' '\x7d' [])
    | cons b pairs ih =>
      obtain ⟨hb, hpairs⟩ := List.forall_mem_cons.mp h
      have hvalue : Lacks '\x7d' '\x7d' (": ".toList ++ b.value.toList) :=
        .append_of_first (by decide) hb.value_braces
      have hpair : Lacks '\x7d' '\x7d' (pairText b) := hb.key_braces.append_of_second hvalue (by simp)
      cases pairs with
      | nil => simpa using hpair
      | cons next pairs =>
        have hrest : Lacks '\x7d' '\x7d' ("; ".toList ++ "; ".toList.intercalate ((next :: pairs).map pairText)) :=
          .append_of_first (by decide) (ih hpairs)
        have hall := hpair.append_of_second hrest (by simp)
        simpa [List.intercalate_cons_cons] using hall
  have hend := hjoined.append_of_second (by decide : Lacks '\x7d' '\x7d' " \x7d".toList) (by decide)
  exact Lacks.append_of_first (s := [' ']) (by decide) hend

/-- **Bindings between double braces are read**, where these are the first ones of a text. -/
theorem bindings_braced (h : ∀ b ∈ pairs, Bindable b) {front : List Char}
    (hfront : Lacks '\x7b' '\x7b' (front ++ ['\x7b'])) (after : List Char) :
    bindings (front ++ (braced pairs ++ after)) = pairs := by
  have hopen := cut?_pair hfront
    (' ' :: ("; ".toList.intercalate (pairs.map pairText) ++ [' ']) ++ '\x7d' :: '\x7d' :: after)
  have hclose : cut? ['\x7d', '\x7d']
      (' ' :: ("; ".toList.intercalate (pairs.map pairText) ++ [' ']) ++ '\x7d' :: '\x7d' :: after) =
        some (' ' :: ("; ".toList.intercalate (pairs.map pairText) ++ [' ']), after) :=
    cut?_pair (by simpa using lacks_body h) after
  have htext : front ++ (braced pairs ++ after) = front ++ '\x7b' :: '\x7b' ::
      (' ' :: ("; ".toList.intercalate (pairs.map pairText) ++ [' ']) ++ '\x7d' :: '\x7d' :: after) := by
    simp [braced]
  rw [htext, bindings_of_cut? hopen hclose]
  rcases eq_or_ne pairs [] with rfl | hne
  · rfl
  · exact filterMap_binding?_splitOn hne h

/-! ## Bindings in attributes -/

theorem renderAttribute_eq (b : Attribute) : Markup.renderAttribute b = ' ' :: attributeText b := by
  simp [Markup.renderAttribute, attributeText]

/-- In a tag there is a blank before the first attribute too. -/
theorem flatMap_renderAttribute (hne : pairs ≠ []) :
    pairs.flatMap Markup.renderAttribute = ' ' :: attributeList pairs := by
  induction pairs with
  | nil => exact absurd rfl hne
  | cons b pairs ih =>
    rw [List.flatMap_cons, renderAttribute_eq]
    cases pairs with
    | nil => simp [attributeList]
    | cons next pairs =>
      rw [ih (List.cons_ne_nil _ _)]
      simp [attributeList, List.intercalate_cons_cons]

/-- **Bindings that are written as attributes are read**, with the values that were escaped. -/
theorem read_attributeList (h : ∀ b ∈ pairs, b.Named) : Attributes.read (attributeList pairs) = pairs := by
  rcases eq_or_ne pairs [] with rfl | hne
  · exact Attributes.read_nil
  · have hread := Markup.read_rendered h
    have hstart : trimStart (' ' :: attributeList pairs) = trimStart (attributeList pairs) :=
      List.dropWhile_cons_of_pos (by decide)
    rw [flatMap_renderAttribute hne, Markup.read_eq, hstart, ← Markup.read_eq] at hread
    exact hread

/-! ## One query in two spellings -/

/-- **Bindings mean the same between double braces as in the attributes of a tag**: both readers find them in order
and with repetitions, whatever characters their values have besides the marks between bindings, and so they give one
data source. -/
theorem ofBindings_braced (h : ∀ b ∈ pairs, Bindable b) {front : List Char}
    (hfront : Lacks '\x7b' '\x7b' (front ++ ['\x7b'])) (after : List Char) :
    bindings (front ++ (braced pairs ++ after)) = pairs ∧ Attributes.read (attributeList pairs) = pairs ∧
      ofBindings (bindings (front ++ (braced pairs ++ after))) =
        ofAttributes (Attributes.read (attributeList pairs)) := by
  have hbraced := bindings_braced h hfront after
  have hattributes := read_attributeList fun b hb => (h b hb).named
  refine ⟨hbraced, hattributes, ?_⟩
  rw [hbraced, hattributes]
  rfl

/-- A field that is bound three times, under two keys, a key that names no field, and values with a colon, quotes, a
brace at the end and what looks like the name of a character. -/
def oddPairs : Attributes :=
  [⟨"agg", "sum"⟩, ⟨"x\x7d", "\"y\": &lt"⟩, ⟨"aggregation", ""⟩, ⟨"agg", "'it\x7d"⟩]

theorem ofBindings_braced_odd :
    (∀ b ∈ oddPairs, Bindable b) ∧ Lacks '\x7b' '\x7b' ("\x7b a ".toList ++ ['\x7b']) ∧
      ofBindings (bindings
          "\x7b a \x7b\x7b agg: sum; x\x7d: \"y\": &lt; aggregation: ; agg: 'it\x7d \x7d\x7d \x7d".toList) =
        ofAttributes (Attributes.read
          "agg=\"sum\" x\x7d=\"&quot;y&quot;: &amp;lt\" aggregation=\"\" agg=\"'it\x7d\"".toList) := by
  have hbindable : ∀ b ∈ oddPairs, Bindable b := by
    decide
  have hfront : Lacks '\x7b' '\x7b' ("\x7b a ".toList ++ ['\x7b']) := by
    decide
  exact ⟨hbindable, hfront, (ofBindings_braced hbindable hfront " \x7d".toList).2.2⟩

end DashboardMarkup.DataSource
