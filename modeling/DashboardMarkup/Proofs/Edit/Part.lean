import DashboardMarkup.Proofs.Edit.Simultaneous
import DashboardMarkup.Proofs.Text.Outside

/-!
# A part of a document under an edit

An edit that carries out splices at once turns each part of a document, between its splices, into a part of
the new one. `Splice.Part` follows one part from the old document to the new one, `Element.Becomes` one
element.

* `Part.narrow`: so does a part of a part.
* `becomes_of_part`: an element whose content is a part keeps it, but for the splices inside.
* `innerText_of_becomes`: what becomes of an element fixes the text of its content.
-/

namespace DashboardMarkup

open Text (size size_nil size_append)

namespace Splice

/-- The splices that begin inside a span. -/
def inside (span : Span) (splices : List Splice) : List Splice :=
  splices.filter fun s => span.covers s.span.start

/-- **A part of a document and what an edit makes of it.** Both stand behind some text, and of the splices
some are carried out in the part. -/
structure Part (doc doc' : List Char) (splices : List Splice) (before before' part part' : List Char)
    (own : List Splice) : Prop where
  old : ∃ behind, doc = before ++ (part ++ behind)
  new : ∃ behind, doc' = before' ++ (part' ++ behind)
  plan : ∃ first last, splices = first ++ (own ++ last) ∧ (∀ s ∈ first, s.span.start < size before) ∧
    ∀ s ∈ last, size before + size part ≤ s.span.start
  within : ∀ s ∈ own, size before ≤ s.span.start ∧ s.span.start < size before + size part
  carries : Carries (size before) own part part'

namespace Part

variable {doc doc' before before' part part' : List Char} {splices own : List Splice}

/-- The splices of a part are those that begin in it. -/
theorem inside_eq (h : Part doc doc' splices before before' part part' own) :
    inside ⟨size before, size before + size part⟩ splices = own := by
  obtain ⟨first, last, rfl, hfirst, hlast⟩ := h.plan
  have hnone : ∀ l : List Splice, (∀ s ∈ l, s.span.start < size before ∨
      size before + size part ≤ s.span.start) →
        inside ⟨size before, size before + size part⟩ l = [] := by
    intro l hl
    refine List.filter_eq_nil_iff.mpr fun s hs hcovers => ?_
    have := Span.covers_iff.mp hcovers
    have := hl s hs
    simp only at *
    omega
  have hown : inside ⟨size before, size before + size part⟩ own = own :=
    List.filter_eq_self.mpr fun s hs => Span.covers_iff.mpr (h.within s hs)
  have happend : ∀ l l', inside ⟨size before, size before + size part⟩ (l ++ l') =
      inside ⟨size before, size before + size part⟩ l ++
        inside ⟨size before, size before + size part⟩ l' := fun l l' => List.filter_append _ _
  rw [happend, happend, hown, hnone first fun s hs => Or.inl (hfirst s hs),
    hnone last fun s hs => Or.inr (hlast s hs), List.nil_append, List.append_nil]

/-- A part of a part. -/
theorem narrow {a b c a' b' c' : List Char} {first own last : List Splice}
    (h : Part doc doc' splices before before' (a ++ (b ++ c)) (a' ++ (b' ++ c')) (first ++ (own ++ last)))
    (hfirst : ∀ s ∈ first, s.span.start < size before + size a)
    (hlast : ∀ s ∈ last, size before + size a + size b ≤ s.span.start)
    (hwithin : ∀ s ∈ own, size before + size a ≤ s.span.start ∧
      s.span.start < size before + size a + size b)
    (hcarries : Carries (size before + size a) own b b') :
    Part doc doc' splices (before ++ a) (before' ++ a') b b' own := by
  obtain ⟨behind, hold⟩ := h.old
  obtain ⟨behind', hnew⟩ := h.new
  obtain ⟨front, back, hsplices, hfront, hback⟩ := h.plan
  refine ⟨⟨c ++ behind, by rw [hold]; simp⟩, ⟨c' ++ behind', by rw [hnew]; simp⟩,
    ⟨front ++ first, last ++ back, by rw [hsplices]; simp, ?_, ?_⟩, ?_, ?_⟩
  · intro s hs
    rw [size_append]
    rcases List.mem_append.mp hs with hs | hs
    · have := hfront s hs
      omega
    · exact hfirst s hs
  · intro s hs
    rw [size_append]
    rcases List.mem_append.mp hs with hs | hs
    · exact hlast s hs
    · have := hback s hs
      simp only [size_append] at this
      omega
  · rw [size_append]
    exact hwithin
  · rw [size_append]
    exact hcarries

/-- The end of a part. -/
theorem behind {a b a' b' : List Char} {first own : List Splice}
    (h : Part doc doc' splices before before' (a ++ b) (a' ++ b') (first ++ own))
    (hfirst : ∀ s ∈ first, s.span.start < size before + size a)
    (hwithin : ∀ s ∈ own, size before + size a ≤ s.span.start ∧
      s.span.start < size before + size a + size b)
    (hcarries : Carries (size before + size a) own b b') :
    Part doc doc' splices (before ++ a) (before' ++ a') b b' own := by
  refine @narrow doc doc' before before' splices a b [] a' b' [] first own [] ?_ hfirst (by simp) hwithin
    hcarries
  simpa only [List.append_nil] using h

end Part

end Splice

namespace Markup

/-- **What becomes of an element** in an edit: its name stays, and so do the kind of its tag and whether it
is closed; it has some attributes; and its content is as it was, but for the splices that begin in it. -/
structure Element.Becomes (doc doc' : List Char) (splices : List Splice) (newAttrs : Attributes)
    (e e' : Element) : Prop where
  name : e'.name = e.name
  attrs : e'.attrs = newAttrs
  selfClosing : e'.selfClosing = e.selfClosing
  closed : e'.closed = e.closed
  content : ∀ inner, e.inner? = some inner → ∃ content content',
    e.innerText doc = .ok content ∧ e'.innerText doc' = .ok content' ∧
      Splice.Carries inner.start (Splice.inside inner splices) content content'

variable {doc doc' before before' part part' : List Char} {splices own : List Splice}
  {newAttrs : Attributes} {e e' : Element} {stop stop' : Nat}

theorem inner?_of_paired {e : Element} {inner : Span} {stop : Nat} (h : e.body = .paired inner stop) :
    e.inner? = some inner := by
  unfold Element.inner?
  rw [h]

theorem innerText_of_paired {before part behind : List Char} {e : Element} {stop : Nat}
    (h : e.body = .paired ⟨size before, size before + size part⟩ stop) :
    e.innerText (before ++ (part ++ behind)) = .ok part := by
  unfold Element.innerText Span.text
  rw [inner?_of_paired h]
  simp only
  rw [Span.cut?_append]

/-- An element whose content is a part of the document. -/
theorem becomes_of_part (h : Splice.Part doc doc' splices before before' part part' own)
    (hname : e'.name = e.name) (hattrs : e'.attrs = newAttrs)
    (hbody : e.body = .paired ⟨size before, size before + size part⟩ stop)
    (hbody' : e'.body = .paired ⟨size before', size before' + size part'⟩ stop') :
    e.Becomes doc doc' splices newAttrs e' := by
  refine ⟨hname, hattrs, ?_, ?_, ?_⟩
  · unfold Element.selfClosing
    rw [hbody, hbody']
    rfl
  · unfold Element.closed
    rw [hbody, hbody']
    rfl
  · intro inner hinner
    rw [inner?_of_paired hbody] at hinner
    obtain rfl := Option.some.inj hinner
    obtain ⟨behind, hold⟩ := h.old
    obtain ⟨behind', hnew⟩ := h.new
    refine ⟨part, part', ?_, ?_, ?_⟩
    · rw [hold]
      exact innerText_of_paired hbody
    · rw [hnew]
      exact innerText_of_paired hbody'
    · rw [h.inside_eq]
      exact h.carries

/-- What becomes of an element whose content is a part has the new part as its content. -/
theorem innerText_of_becomes (hbecomes : e.Becomes doc doc' splices newAttrs e')
    (h : Splice.Part doc doc' splices before before' part part' own)
    (hbody : e.body = .paired ⟨size before, size before + size part⟩ stop) :
    e'.innerText doc' = .ok part' := by
  obtain ⟨content, content', hcontent, hcontent', hcarries⟩ :=
    hbecomes.content _ (inner?_of_paired hbody)
  obtain ⟨behind, hold⟩ := h.old
  rw [hold, innerText_of_paired hbody] at hcontent
  obtain rfl := Except.ok.inj hcontent
  rw [h.inside_eq] at hcarries
  rw [hcontent', Splice.Carries.unique before hcarries h.carries]

end Markup

end DashboardMarkup
