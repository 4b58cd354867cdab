import DashboardMarkup.Markup.Bounds

/-!
# Finding elements by id

An element is addressed by its name and id. The search goes into the elements that hold others at any
depth, but not into widgets. An id in a document is compared without the white space around it.
-/

namespace DashboardMarkup.Markup

/-- The elements that the search goes into. -/
def containerNames : List String := ["dashboard", "row", "group", "column", "section"]

/-- The names that a search for some names looks at. -/
def searchedNames (names : List String) : List String :=
  containerNames ++ names.filter fun name => !containerNames.contains name

/-- Whether an element has one of some names and the id. -/
def Element.answers (e : Element) (names : List String) (id : String) : Bool :=
  names.contains e.name && (e.attrs.get? "id").map trimmed == some id

/-- The content of an element that the search goes into. -/
def Element.entered? (e : Element) : Option Span :=
  if containerNames.contains e.name then e.inner? else none

theorem Element.inner?_of_entered? {e : Element} {inner : Span} (h : e.entered? = some inner) :
    e.inner? = some inner := by
  unfold entered? at h
  split at h
  · exact h
  · exact absurd h (by simp)

/-- All elements of some names inside a span that are reached by going into containers, in order; one
that holds another comes first. -/
def walk (doc : List Char) (names : List String) (span : Span) : Except Fault (List Element) :=
  match _h : find doc span names with
  | .error fault => .error fault
  | .ok found => do
    let parts ← found.attach.mapM fun ⟨e, _he⟩ =>
      match _hi : e.entered? with
      | some inner => (walk doc names inner).map (e :: ·)
      | none => .ok [e]
    return parts.flatten
termination_by span.stop - span.start
decreasing_by
  have h := within_of_mem_find _h e _he
  have hi := Element.inner?_of_entered? _hi
  have := h.start_le
  have := h.start_lt_openEnd
  have := h.stop_le
  have := h.inner_start _ hi
  have := h.inner_le _ hi
  have := h.inner_stop_lt _ hi
  omega

/-- The elements of some names with an id inside a span. -/
def findById (doc : List Char) (names : List String) (id : String) (span : Span) :
    Except Fault (List Element) :=
  (walk doc (searchedNames names) span).map fun reached => reached.filter (·.answers names id)

/-- The elements of some names with an id in a document. -/
def elementsById (doc : List Char) (names : List String) (id : String) :
    Except Fault (List Element) :=
  findById doc names id ⟨0, Text.size doc⟩

/-- The first element of some names with an id in a document. -/
def elementById (doc : List Char) (names : List String) (id : String) :
    Except Fault (Option Element) :=
  (elementsById doc names id).map List.head?

end DashboardMarkup.Markup
