import DashboardMarkup.Style.Token

/-!
# What tokens spell

A token names what it sets by a key of one part or two, in any case of letters, each with a colon behind it, and
the rest of it is the value. All settings have one key but the colors, which have one of their own and one for each
of four kinds of charts. What is no value of the setting that a token names sets nothing.

* `Target.paths`, `Target.value?`: how settings are named, and the values that they take.
* `sets_iff`: what a token sets is read off its key and its value.
* `onAxis_iff`: which tokens speak of the bottom axis.
-/

namespace DashboardMarkup.Token

open Text

/-- What a token can set: a setting of a widget, or a number of its bottom axis. -/
inductive Target
  | switch (f : Switch)
  | measure (f : Measure)
  | label (f : Label)
  | tick (f : Tick)
  | colors
  deriving DecidableEq

/-- A key of one part or two, in small letters. -/
inductive Path
  | one (key : String)
  | two (key part : String)
  deriving DecidableEq

namespace Target

/-- The keys that name a target. -/
def paths : Target → List Path
  | switch .showLegend => [.one "legend"]
  | switch .showGrid => [.one "grid"]
  | switch .enableGridX => [.one "gridx"]
  | switch .enableGridY => [.one "gridy"]
  | switch .enableArea => [.one "area"]
  | switch .compact => [.one "compact"]
  | measure .marginBottom => [.one "mb"]
  | measure .borderRadius => [.one "radius"]
  | measure .startAngle => [.two "radial" "start"]
  | measure .endAngle => [.two "radial" "end"]
  | measure .innerRadius => [.two "radial" "inner"]
  | measure .outerRadius => [.two "radial" "outer"]
  | measure .cornerRadius => [.two "radial" "corner"]
  | measure .titleFontSize => [.two "title" "size"]
  | measure .titleMarginBottom => [.two "title" "mb"]
  | measure .borderWidth => [.two "border" "width"]
  | label .layout => [.one "layout"]
  | label .groupMode => [.one "group"]
  | label .backgroundColor => [.one "bg"]
  | label .titleFontFamily => [.two "title" "font"]
  | label .titleColor => [.two "title" "color"]
  | label .visualizationType => [.two "kpi" "viz"]
  | label .unit => [.two "kpi" "unit"]
  | label .borderVariant => [.two "border" "variant"]
  | label .borderColor => [.two "border" "color"]
  | tick .size => [.two "axisbottom" "ticksize"]
  | tick .padding => [.two "axisbottom" "tickpadding"]
  | tick .rotation => [.two "axisbottom" "tickrotation"]
  | colors => [.one "color", .two "bar" "color", .two "line" "color", .two "pie" "color", .two "area" "color"]

/-- The value that a text says for a target. Groups have one of two modes; all other labels are any text. -/
def value? : Target → List Char → Option Json
  | switch _, text => (switchValue? text).map .bool
  | measure _, text => (measureValue? text).map .double
  | label .groupMode, text =>
    if text = "grouped".toList ∨ text = "stacked".toList then some (.string (String.ofList text)) else none
  | label _, text => (labelValue? text).map .string
  | tick _, text => (measureValue? text).map .double
  | colors, text => (labelValue? text).map fun color => .strings [color]

end Target

/-- A token has a part of a key in front, in any case of letters, and the colon behind it. -/
def Begins (part : String) (rest token : List Char) : Prop :=
  ∃ key, token = key ++ ':' :: rest ∧ ':' ∉ key ∧ lower key = part.toList

/-- **A token spells a key and a value.** The value is all that is left, and may hold colons. -/
def Spells : Path → List Char → List Char → Prop
  | .one key, value, token => Begins key value token
  | .two key part, value, token => ∃ rest, Begins key rest token ∧ Begins part value rest

/-- **A token sets a target to a value.** -/
def Sets (token : List Char) (f : Target) (v : Json) : Prop :=
  ∃ path ∈ f.paths, ∃ value, Spells path value token ∧ f.value? value = some v

namespace Write

/-- What is set. -/
def target : Write → Target
  | switch f _ => .switch f
  | measure f _ => .measure f
  | label f _ => .label f
  | tick f _ => .tick f
  | color _ => .colors

/-- What it is set to, as it is written. -/
def value : Write → Json
  | switch _ b => .bool b
  | measure _ x => .double x
  | label _ t => .string t
  | tick _ x => .double x
  | color c => .strings [c]

end Write

variable {token key value rest : List Char} {a b : String} {f : Target} {path : Path} {w : Write}

/-! ## Parts of keys -/

theorem cutAt?_colon (h : ':' ∉ key) : cutAt? (· == ':') (key ++ ':' :: rest) = some (key, rest) :=
  cutAt?_append (fun _ hc => beq_eq_false_iff_ne.mpr fun heq => h (heq ▸ hc)) (by decide)

theorem begins_iff :
    Begins a rest token ↔ ∃ key, cutAt? (· == ':') token = some (key, rest) ∧ String.ofList (lower key) = a := by
  constructor
  · rintro ⟨key, rfl, hcolon, hlower⟩
    exact ⟨key, cutAt?_colon hcolon, by rw [hlower, String.ofList_toList]⟩
  · rintro ⟨key, hcut, rfl⟩
    obtain ⟨c, hc, hkey, htoken⟩ := append_of_cutAt? hcut
    obtain rfl := beq_iff_eq.mp hc
    exact ⟨key, htoken, fun hmem => absurd (hkey ':' hmem) (by decide), by rw [String.toList_ofList]⟩

theorem Begins.colon_mem (h : Begins a rest token) : ':' ∈ token := by
  obtain ⟨key, rfl, -, -⟩ := h
  exact List.mem_append_right key List.mem_cons_self

/-- The case of the letters of a key makes no difference. -/
theorem Begins.read_eq (h : Begins a rest token) (hcolon : ':' ∉ a.toList) (hlower : lower a.toList = a.toList) :
    read token = read (a.toList ++ ':' :: rest) := by
  obtain ⟨key, rfl, hkey, hl⟩ := h
  unfold read
  rw [cutAt?_colon hkey, cutAt?_colon hcolon]
  simp only [hl, hlower]

theorem Begins.readParts_eq (h : Begins b value rest) : readParts a rest = readPart a b value := by
  obtain ⟨part, hcut, rfl⟩ := begins_iff.mp h
  unfold readParts
  rw [hcut]

/-! ## What is read of a key and a value -/

/-- The first parts of all keys that have two. -/
def partedKeys : List String :=
  ["bar", "line", "pie", "area", "axisbottom", "radial", "title", "kpi", "border"]

/-- A key that is written as it is compared, with a first part of its own if it has two. -/
def Path.known : Path → Bool
  | one key => decide (':' ∉ key.toList ∧ lower key.toList = key.toList)
  | two key _ => partedKeys.contains key

theorem known_of_mem_paths (h : path ∈ f.paths) : path.known = true := by
  have hall : ∀ path ∈ f.paths, path.known = true := by
    cases f with
    | switch f => cases f <;> decide
    | measure f => cases f <;> decide
    | label f => cases f <;> decide
    | tick f => cases f <;> decide
    | colors => decide
  exact hall path h

/-- What a value behind a key says. -/
def readAt : Path → List Char → Reading
  | .one key, value => read (key.toList ++ ':' :: value)
  | .two key part, value => readPart key part value

theorem Begins.read_eq_readParts (h : Begins a rest token) (ha : a ∈ partedKeys) (hcolon : ':' ∈ rest) :
    read token = readParts a rest := by
  have harea : read ("area".toList ++ ':' :: rest) = readParts "area" rest :=
    if_pos (List.contains_iff_mem.mpr hcolon)
  simp only [partedKeys, List.mem_cons, List.not_mem_nil, or_false] at ha
  rcases ha with rfl | rfl | rfl | rfl | rfl | rfl | rfl | rfl | rfl
  all_goals
    refine (h.read_eq (by decide) (by decide)).trans ?_
    first | exact harea | rfl

/-- **A token is read by the key and the value that it spells.** -/
theorem read_of_spells (hpath : path ∈ f.paths) (h : Spells path value token) : read token = readAt path value := by
  have hknown := known_of_mem_paths hpath
  cases path with
  | one key =>
    obtain ⟨hcolon, hlower⟩ := of_decide_eq_true hknown
    exact h.read_eq hcolon hlower
  | two key part =>
    obtain ⟨rest, hkey, hpart⟩ := h
    exact (hkey.read_eq_readParts (List.contains_iff_mem.mp hknown) hpart.colon_mem).trans hpart.readParts_eq

/-- A value of a switch has no colon in it. -/
theorem colon_not_mem_of_switchValue? {on : Bool} (h : switchValue? value = some on) : ':' ∉ value := by
  have hlower : ':' ∈ value → ':' ∈ (String.ofList (lower value)).toList := fun hmem => by
    rw [String.toList_ofList]
    exact List.mem_map.mpr ⟨':', hmem, rfl⟩
  unfold switchValue? at h
  split at h
  · next heq => exact fun hmem => absurd (heq ▸ hlower hmem) (by decide)
  · next heq => exact fun hmem => absurd (heq ▸ hlower hmem) (by decide)
  · next heq => exact fun hmem => absurd (heq ▸ hlower hmem) (by decide)
  · next heq => exact fun hmem => absurd (heq ▸ hlower hmem) (by decide)
  · cases h

/-- A value behind a key of a target is set. -/
theorem write_readAt (hpath : path ∈ f.paths) {v : Json} (h : f.value? value = some v) :
    ∃ w, (readAt path value).write = some w ∧ w.target = f ∧ w.value = v := by
  cases f with
  | switch f =>
    obtain ⟨on, hon, rfl⟩ := Option.map_eq_some_iff.mp h
    refine ⟨.switch f on, ?_, rfl, rfl⟩
    have hread : readAt path value = setSwitch f value := by
      cases f <;> obtain rfl := List.mem_singleton.mp hpath
      case enableArea => exact if_neg (mt List.contains_iff_mem.mp (colon_not_mem_of_switchValue? hon))
      all_goals rfl
    rw [hread]
    exact congrArg (Option.map (Write.switch f)) hon
  | measure f =>
    obtain ⟨x, hx, rfl⟩ := Option.map_eq_some_iff.mp h
    refine ⟨.measure f x, ?_, rfl, rfl⟩
    have hread : readAt path value = setMeasure f value := by
      cases f <;> obtain rfl := List.mem_singleton.mp hpath <;> rfl
    rw [hread]
    exact congrArg (Option.map (Write.measure f)) hx
  | label f =>
    by_cases hmode : f = .groupMode
    · subst hmode
      obtain rfl := List.mem_singleton.mp hpath
      obtain ⟨hvalue, hv⟩ := Option.ite_none_right_eq_some.mp h
      obtain rfl := Option.some.inj hv
      refine ⟨.label .groupMode (String.ofList value), ?_, rfl, rfl⟩
      rcases hvalue with rfl | rfl <;> rfl
    · have hlabel : (labelValue? value).map Json.string = some v := by
        cases f with
        | groupMode => exact absurd rfl hmode
        | _ => exact h
      obtain ⟨t, ht, rfl⟩ := Option.map_eq_some_iff.mp hlabel
      refine ⟨.label f t, ?_, rfl, rfl⟩
      have hread : readAt path value = setLabel f value := by
        cases f with
        | groupMode => exact absurd rfl hmode
        | _ => obtain rfl := List.mem_singleton.mp hpath; rfl
      rw [hread]
      exact congrArg (Option.map (Write.label f)) ht
  | tick f =>
    obtain ⟨x, hx, rfl⟩ := Option.map_eq_some_iff.mp h
    refine ⟨.tick f x, ?_, rfl, rfl⟩
    cases f <;> obtain rfl := List.mem_singleton.mp hpath <;> exact congrArg (Option.map _) hx
  | colors =>
    obtain ⟨color, hcolor, rfl⟩ := Option.map_eq_some_iff.mp h
    refine ⟨.color color, ?_, rfl, rfl⟩
    have hread : readAt path value = setColor value := by
      simp only [Target.paths, List.mem_cons, List.not_mem_nil, or_false] at hpath
      rcases hpath with rfl | rfl | rfl | rfl | rfl <;> rfl
    rw [hread]
    exact congrArg (Option.map Write.color) hcolor

/-! ## From what is set to paths -/

theorem sets_of_setSwitch {f : Switch} (hpath : path ∈ (Target.switch f).paths) (hs : Spells path value token)
    (h : (setSwitch f value).write = some w) : Sets token w.target w.value := by
  obtain ⟨on, hon, rfl⟩ := Option.map_eq_some_iff.mp h
  exact ⟨path, hpath, value, hs, congrArg (Option.map Json.bool) hon⟩

theorem sets_of_setMeasure {f : Measure} (hpath : path ∈ (Target.measure f).paths) (hs : Spells path value token)
    (h : (setMeasure f value).write = some w) : Sets token w.target w.value := by
  obtain ⟨x, hx, rfl⟩ := Option.map_eq_some_iff.mp h
  exact ⟨path, hpath, value, hs, congrArg (Option.map Json.double) hx⟩

theorem sets_of_setLabel {f : Label} (hf : f ≠ .groupMode) (hpath : path ∈ (Target.label f).paths)
    (hs : Spells path value token) (h : (setLabel f value).write = some w) : Sets token w.target w.value := by
  obtain ⟨t, ht, rfl⟩ := Option.map_eq_some_iff.mp h
  refine ⟨path, hpath, value, hs, ?_⟩
  cases f with
  | groupMode => exact absurd rfl hf
  | _ => exact congrArg (Option.map Json.string) ht

theorem sets_of_setGroupMode (hmode : value = "grouped".toList ∨ value = "stacked".toList)
    (hs : Spells (.one "group") value token) (h : (setLabel .groupMode value).write = some w) :
    Sets token w.target w.value := by
  have hlabel : labelValue? value = some (String.ofList value) := by
    rcases hmode with rfl | rfl <;> rfl
  obtain ⟨t, ht, rfl⟩ := Option.map_eq_some_iff.mp h
  obtain rfl := Option.some.inj (hlabel.symm.trans ht)
  exact ⟨_, List.mem_singleton_self _, value, hs, if_pos hmode⟩

theorem sets_of_setColor (hpath : path ∈ Target.colors.paths) (hs : Spells path value token)
    (h : (setColor value).write = some w) : Sets token w.target w.value := by
  obtain ⟨color, hcolor, rfl⟩ := Option.map_eq_some_iff.mp h
  exact ⟨path, hpath, value, hs, congrArg (Option.map fun color => Json.strings [color]) hcolor⟩

theorem sets_of_setTick (hs : Spells (.two "axisbottom" b) value token) (h : (setTick b value).write = some w) :
    Sets token w.target w.value := by
  have htick : ∀ f : Tick, .two "axisbottom" b ∈ (Target.tick f).paths →
      (measureValue? value).map (Write.tick f) = some w → Sets token w.target w.value := fun f hpath h => by
    obtain ⟨x, hx, rfl⟩ := Option.map_eq_some_iff.mp h
    exact ⟨_, hpath, value, hs, congrArg (Option.map Json.double) hx⟩
  unfold setTick at h
  simp only at h
  split at h
  · exact htick .size (by decide) h
  · exact htick .padding (by decide) h
  · exact htick .rotation (by decide) h
  · cases h

/-- **All that is read of a key with two parts**, over the targets that have such keys. -/
theorem readPart_cases (a b : String) (value : List Char) :
    (.two a b ∈ Target.colors.paths ∧ readPart a b value = setColor value) ∨
    (a = "axisbottom" ∧ readPart a b value = setTick b value) ∨
    (∃ f, .two a b ∈ (Target.measure f).paths ∧ readPart a b value = setMeasure f value) ∨
    (∃ f, f ≠ .groupMode ∧ .two a b ∈ (Target.label f).paths ∧ readPart a b value = setLabel f value) ∨
    readPart a b value = {} := by
  unfold readPart
  split
  · exact .inl ⟨by decide, rfl⟩
  · exact .inl ⟨by decide, rfl⟩
  · exact .inl ⟨by decide, rfl⟩
  · exact .inl ⟨by decide, rfl⟩
  · exact .inr (.inl ⟨rfl, rfl⟩)
  · exact .inr (.inr (.inl ⟨.startAngle, by decide, rfl⟩))
  · exact .inr (.inr (.inl ⟨.endAngle, by decide, rfl⟩))
  · exact .inr (.inr (.inl ⟨.innerRadius, by decide, rfl⟩))
  · exact .inr (.inr (.inl ⟨.outerRadius, by decide, rfl⟩))
  · exact .inr (.inr (.inl ⟨.cornerRadius, by decide, rfl⟩))
  · exact .inr (.inr (.inr (.inl ⟨.titleFontFamily, by decide, by decide, rfl⟩)))
  · exact .inr (.inr (.inl ⟨.titleFontSize, by decide, rfl⟩))
  · exact .inr (.inr (.inr (.inl ⟨.titleColor, by decide, by decide, rfl⟩)))
  · exact .inr (.inr (.inl ⟨.titleMarginBottom, by decide, rfl⟩))
  · exact .inr (.inr (.inr (.inl ⟨.visualizationType, by decide, by decide, rfl⟩)))
  · exact .inr (.inr (.inr (.inl ⟨.unit, by decide, by decide, rfl⟩)))
  · exact .inr (.inr (.inr (.inl ⟨.borderVariant, by decide, by decide, rfl⟩)))
  · exact .inr (.inr (.inl ⟨.borderWidth, by decide, rfl⟩))
  · exact .inr (.inr (.inr (.inl ⟨.borderColor, by decide, by decide, rfl⟩)))
  · exact .inr (.inr (.inr (.inr rfl)))

/-- What a token whose key has two parts sets. -/
theorem sets_of_readPart (hs : Spells (.two a b) value token) (h : (readPart a b value).write = some w) :
    Sets token w.target w.value := by
  rcases readPart_cases a b value with ⟨hpath, heq⟩ | ⟨rfl, heq⟩ | ⟨f, hpath, heq⟩ | ⟨f, hf, hpath, heq⟩ | heq <;>
    rw [heq] at h
  · exact sets_of_setColor hpath hs h
  · exact sets_of_setTick hs h
  · exact sets_of_setMeasure hpath hs h
  · exact sets_of_setLabel hf hpath hs h
  · cases h

theorem sets_of_readParts (hkey : Begins a rest token) (h : (readParts a rest).write = some w) :
    Sets token w.target w.value := by
  unfold readParts at h
  split at h
  · next part value hpart => exact sets_of_readPart ⟨rest, hkey, begins_iff.mpr ⟨part, hpart, rfl⟩⟩ h
  · cases h

/-- What is read of a token is set by it. -/
theorem sets_of_read (h : (read token).write = some w) : Sets token w.target w.value := by
  unfold read at h
  split at h
  · cases h
  · next key value hcut =>
    have hbegins {a : String} (hkey : String.ofList (lower key) = a) : Begins a value token :=
      begins_iff.mpr ⟨key, hcut, hkey⟩
    have hspells {a : String} (hkey : String.ofList (lower key) = a) : Spells (.one a) value token := hbegins hkey
    split at h
    · next hkey => exact sets_of_setSwitch (by decide) (hspells hkey) h
    · next hkey => exact sets_of_setSwitch (by decide) (hspells hkey) h
    · next hkey => exact sets_of_setSwitch (by decide) (hspells hkey) h
    · next hkey => exact sets_of_setSwitch (by decide) (hspells hkey) h
    · next hkey =>
      split at h
      · exact sets_of_readParts (hbegins hkey) h
      · exact sets_of_setSwitch (by decide) (hspells hkey) h
    · next hkey => exact sets_of_setSwitch (by decide) (hspells hkey) h
    · next hkey => exact sets_of_setMeasure (by decide) (hspells hkey) h
    · next hkey => exact sets_of_setMeasure (by decide) (hspells hkey) h
    · next hkey => exact sets_of_setLabel (by decide) (by decide) (hspells hkey) h
    · next hkey =>
      split at h
      · next hmode => exact sets_of_setGroupMode (by simpa using hmode) (hspells hkey) h
      · cases h
    · next hkey => exact sets_of_setColor (by decide) (hspells hkey) h
    · next hkey => exact sets_of_setLabel (by decide) (by decide) (hspells hkey) h
    · exact sets_of_readParts (hbegins rfl) h

/-- **What a token sets is read off its key and its value.** -/
theorem sets_iff {v : Json} :
    Sets token f v ↔ ∃ w, (read token).write = some w ∧ w.target = f ∧ w.value = v := by
  constructor
  · rintro ⟨path, hpath, value, hs, hv⟩
    rw [read_of_spells hpath hs]
    exact write_readAt hpath hv
  · rintro ⟨w, hread, rfl, rfl⟩
    exact sets_of_read hread

/-! ## The bottom axis -/

theorem onAxis_readPart_iff : (readPart a b value).onAxis = true ↔ a = "axisbottom" := by
  constructor
  · intro h
    rcases readPart_cases a b value with ⟨-, heq⟩ | ⟨ha, -⟩ | ⟨f, -, heq⟩ | ⟨f, -, -, heq⟩ | heq
    case inr.inl => exact ha
    all_goals
      rw [heq] at h
      exact absurd h Bool.false_ne_true
  · rintro rfl
    rfl

theorem onAxis_readParts_iff : (readParts a rest).onAxis = true ↔ a = "axisbottom" ∧ ':' ∈ rest := by
  unfold readParts
  cases hcut : cutAt? (· == ':') rest with
  | none =>
    exact ⟨fun h => absurd h Bool.false_ne_true, fun h => absurd hcut (cutAt?_ne_none h.2 (by decide))⟩
  | some cut =>
    have hcolon := (begins_iff.mpr ⟨cut.1, hcut, rfl⟩).colon_mem
    exact onAxis_readPart_iff.trans (and_iff_left hcolon).symm

/-- **A token speaks of the bottom axis** if its key begins with it and has a second part, whatever that is. -/
theorem onAxis_iff : (read token).onAxis = true ↔ ∃ rest, Begins "axisbottom" rest token ∧ ':' ∈ rest := by
  constructor
  · intro h
    unfold read at h
    split at h
    · exact absurd h Bool.false_ne_true
    · next key value hcut =>
      have hparts {a : String} (hkey : String.ofList (lower key) = a) (h : (readParts a value).onAxis = true) :
          ∃ rest, Begins "axisbottom" rest token ∧ ':' ∈ rest := by
        obtain ⟨rfl, hcolon⟩ := onAxis_readParts_iff.mp h
        exact ⟨value, begins_iff.mpr ⟨key, hcut, hkey⟩, hcolon⟩
      split at h
      case h_5 hkey =>
        split at h
        · exact hparts hkey h
        · exact absurd h Bool.false_ne_true
      case h_10 =>
        split at h
        · exact absurd h Bool.false_ne_true
        · exact absurd h Bool.false_ne_true
      case h_13 => exact hparts rfl h
      all_goals exact absurd h Bool.false_ne_true
  · rintro ⟨rest, hbegins, hcolon⟩
    rw [hbegins.read_eq_readParts (by decide) hcolon]
    exact onAxis_readParts_iff.mpr ⟨rfl, hcolon⟩

end DashboardMarkup.Token
