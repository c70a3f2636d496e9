import Mathlib.Data.List.Basic

/-!
The autoinstall handling of a server controller (`subiquity/server/controller.py`):
which section of the autoinstall config `setup_autoinstall` loads and validates, whether
the controller is `interactive()`, and how `_confirmed` disables it for a variant.

* `Controller`, `AutoinstallConfig`: what these methods read; JSON values are a type `J`,
  with `none` for `null`.
* `findAiData`, `Controller.setupAutoinstall`, `Controller.interactive`,
  `Controller.confirmed`: the methods.
* `Controller.not_interactive_of_confirmed`: a controller that `_confirmed` disabled for a
  variant stays non-interactive, whatever the config and the later confirmations.
* `alias_is_synonym`: a config that names the controller's section by its
  `autoinstall_key_alias` is loaded, validated and treated as interactive exactly like
  the same config naming it by `autoinstall_key`.
-/

namespace Subiquity

variable {J : Type}

/-- What the autoinstall methods read of a `SubiquityController`. -/
structure Controller (J : Type) where
  autoinstallKey : Option String
  /-- `jsonschema.validate` against `autoinstall_schema`: whether data passes it;
  `none` when there is no schema. -/
  autoinstallSchema : Option (J → Bool)
  autoinstallDefault : Option J
  autoinstallKeyAlias : Option String
  interactiveForVariants : Option (List String)
  /-- `self._active`. -/
  active : Bool

/-- `self.app.autoinstall_config`, a dict: its sections by key (a value `none` is
`null`), and its `interactive-sections`, a list of names by the autoinstall schema,
`none` when absent. `None` behaves as `{}` in the methods below. -/
structure AutoinstallConfig (J : Type) where
  sections : List (String × Option J)
  interactiveSections : Option (List String)

/-- Whether the config is truthy: not an empty dict. -/
def AutoinstallConfig.given (cfg : AutoinstallConfig J) : Bool :=
  !cfg.sections.isEmpty || cfg.interactiveSections.isSome

/-- `AutoinstallValidationError(section)`. -/
structure AutoinstallValidationError where
  sectionName : Option String
  deriving DecidableEq

namespace Controller

/-- `key_candidates` of `setup_autoinstall`. -/
def keyCandidates (ctl : Controller J) : List (Option String) :=
  ctl.autoinstallKey :: ctl.autoinstallKeyAlias.toList.map some

end Controller

/-- The `for … else` loop of `setup_autoinstall`: the section of the first candidate key
the config has (a missing key, `None` among them, raises `KeyError`, which passes), else
`autoinstall_default`. -/
def findAiData (sections : List (String × Option J)) (default : Option J) :
    List (Option String) → Option J
  | [] => default
  | key :: keys =>
    match key.bind (sections.lookup ·) with
    | some data => data
    | none => findAiData sections default keys

namespace Controller

/-- `setup_autoinstall()`: `none` when it returns at once, otherwise the data it passes to
`load_autoinstall_data`, or the validation error it raises. -/
def setupAutoinstall (ctl : Controller J) (cfg : AutoinstallConfig J) :
    Except AutoinstallValidationError (Option (Option J)) :=
  if cfg.given then
    let aiData := findAiData cfg.sections ctl.autoinstallDefault ctl.keyCandidates
    match aiData, ctl.autoinstallSchema with
    | some data, some valid => if valid data then .ok (some aiData) else .error ⟨ctl.autoinstallKey⟩
    | _, _ => .ok (some aiData)
  else .ok none

/-- `interactive()`; `key in i_sections` is false for a key `None`. -/
def interactive (ctl : Controller J) (cfg : AutoinstallConfig J) : Bool :=
  if cfg.given then
    let iSections := cfg.interactiveSections.getD []
    if "*" ∈ iSections then ctl.active
    else if ctl.autoinstallKey ∈ iSections.map some then ctl.active
    else if ctl.autoinstallKeyAlias.isSome ∧ ctl.autoinstallKeyAlias ∈ iSections.map some then
      ctl.active
    else false
  else ctl.active

/-- `_confirmed()` for the variant of the source, when the controller subscribed to
`INSTALL_CONFIRMED` and `configured()` returns; `configured()` writes the controller's
state and broadcasts, which changes nothing here. -/
def confirmed (ctl : Controller J) (variant : String) : Controller J :=
  match ctl.interactiveForVariants with
  | some variants => if variant ∈ variants then ctl else { ctl with active := false }
  | none => ctl

/-- With a config, `interactive()` is whether the controller is active and
`interactive-sections` names `*`, its key or its alias. -/
lemma interactive_of_given {ctl : Controller J} {cfg : AutoinstallConfig J} (h : cfg.given) :
    ctl.interactive cfg = (ctl.active && decide ("*" ∈ cfg.interactiveSections.getD [] ∨
      ctl.autoinstallKey ∈ (cfg.interactiveSections.getD []).map some ∨
      (ctl.autoinstallKeyAlias.isSome ∧
        ctl.autoinstallKeyAlias ∈ (cfg.interactiveSections.getD []).map some))) := by
  unfold interactive
  simp only [h, if_true]
  split_ifs <;> simp_all

/-- A controller is interactive only while it is active. -/
lemma active_of_interactive {ctl : Controller J} {cfg : AutoinstallConfig J}
    (h : ctl.interactive cfg) : ctl.active := by
  by_cases hg : cfg.given
  · rw [interactive_of_given hg] at h
    exact (Bool.and_eq_true _ _).mp h |>.1
  · simpa [interactive, hg] using h

lemma confirmed_active {c : Controller J} (hc : c.active = false) (v : String) :
    (c.confirmed v).active = false := by
  unfold confirmed
  split
  · split_ifs
    exacts [hc, rfl]
  · exact hc

/-- **Once disabled for a variant, never interactive again.** A controller that
`_confirmed` disabled is not interactive whatever the config and the later
confirmations. -/
lemma not_interactive_of_confirmed {ctl : Controller J} {variant : String}
    {variants : List String} (hv : ctl.interactiveForVariants = some variants)
    (hn : variant ∉ variants) (later : List String) (cfg : AutoinstallConfig J) :
    (later.foldl confirmed (ctl.confirmed variant)).interactive cfg = false := by
  have hoff : ∀ (vs : List String) (c : Controller J), c.active = false →
      (vs.foldl confirmed c).active = false := by
    intro vs
    induction vs with
    | nil => exact fun _ h => h
    | cons v vs ih => exact fun c hc => ih _ (confirmed_active hc v)
  have h := hoff later (ctl.confirmed variant) (by simp [confirmed, hv, hn])
  exact Bool.eq_false_iff.mpr fun hi => absurd (active_of_interactive hi) (by simp [h])

/-- A controller for the desktop variant only, confirmed for a server install and then
for a desktop one, is not interactive even when every section is. -/
theorem not_interactive_of_confirmed_server :
    let ctl : Controller Nat := ⟨some "timezone", none, none, none, some ["desktop"], true⟩
    "server" ∉ ["desktop"] ∧
      (["desktop"].foldl confirmed (ctl.confirmed "server")).interactive ⟨[], some ["*"]⟩ = false := by
  intro ctl
  exact ⟨by decide, not_interactive_of_confirmed rfl (by decide) _ _⟩

end Controller

/-! ### The alias is a synonym -/

/-- The config with the key `a` renamed to `k`, in its sections and in
`interactive-sections`. -/
def AutoinstallConfig.rename (a k : String) (cfg : AutoinstallConfig J) : AutoinstallConfig J :=
  ⟨cfg.sections.map fun p => (if p.1 = a then k else p.1, p.2),
    cfg.interactiveSections.map (List.map fun s => if s = a then k else s)⟩

lemma lookup_rename {a k : String} (hka : k ≠ a) :
    ∀ {sections : List (String × Option J)}, k ∉ sections.map Prod.fst →
      (sections.map fun p => (if p.1 = a then k else p.1, p.2)).lookup k = sections.lookup a ∧
      (sections.map fun p => (if p.1 = a then k else p.1, p.2)).lookup a = none
  | [], _ => ⟨rfl, rfl⟩
  | (s, v) :: sections, hk => by
    simp only [List.map_cons, List.mem_cons, not_or] at hk
    have ih := lookup_rename hka hk.2
    by_cases hs : s = a
    · have hak : (a == k) = false := by simpa using hka.symm
      simp only [List.map_cons, hs, if_true, List.lookup_cons, beq_self_eq_true, hak, ih.2]
      exact ⟨trivial, trivial⟩
    · have hks : (k == s) = false := by simpa using hk.1
      have has : (a == s) = false := by simpa using Ne.symm hs
      simp only [List.map_cons, hs, if_false, List.lookup_cons, hks, has, ih.1, ih.2]
      exact ⟨trivial, trivial⟩

lemma mem_map_rename {a k s : String} {l : List String} :
    s ∈ l.map (fun x => if x = a then k else x) ↔ s = k ∧ a ∈ l ∨ s ≠ a ∧ s ∈ l := by
  simp only [List.mem_map]
  constructor
  · rintro ⟨x, hx, rfl⟩
    by_cases h : x = a
    · exact .inl ⟨by simp [h], h ▸ hx⟩
    · exact .inr ⟨by simp [h], by simpa [h]⟩
  · rintro (⟨rfl, ha⟩ | ⟨hs, hl⟩)
    exacts [⟨a, ha, by simp⟩, ⟨s, hl, by simp [hs]⟩]

/-- A renamed list names `s` or `a` exactly when the list did. -/
lemma mem_or_rename {a k s : String} {l : List String} :
    s ∈ l.map (fun x => if x = a then k else x) ∨ a ∈ l ↔ s ∈ l ∨ a ∈ l := by
  rw [mem_map_rename]
  constructor
  · rintro ((⟨-, h⟩ | ⟨-, h⟩) | h)
    exacts [.inr h, .inl h, .inr h]
  · rintro (h | h)
    · by_cases hs : s = a
      exacts [.inr (hs ▸ h), .inl (.inr ⟨hs, h⟩)]
    · exact .inr h

@[simp] lemma AutoinstallConfig.given_rename (a k : String) (cfg : AutoinstallConfig J) :
    (cfg.rename a k).given = cfg.given := by
  cases cfg with
  | mk sections i => cases sections <;> cases i <;> rfl

section Alias

variable {ctl : Controller J} {k a : String} {cfg : AutoinstallConfig J}

/-- With the alias renamed to the key, `setup_autoinstall` finds the same data: under the
key what it found under the alias, and nothing under the alias. -/
lemma setupAutoinstall_rename (hk : ctl.autoinstallKey = some k)
    (ha : ctl.autoinstallKeyAlias = some a) (hka : k ≠ a) (hks : k ∉ cfg.sections.map Prod.fst) :
    ctl.setupAutoinstall (cfg.rename a k) = ctl.setupAutoinstall cfg := by
  obtain ⟨hlk, hla⟩ := lookup_rename hka hks
  have hnk : cfg.sections.lookup k = none :=
    List.lookup_eq_none_iff.mpr fun p hp => by
      simp only [bne_iff_ne, ne_eq]
      exact fun h => hks (h ▸ List.mem_map_of_mem _ hp)
  have hdata : findAiData (cfg.rename a k).sections ctl.autoinstallDefault ctl.keyCandidates =
      findAiData cfg.sections ctl.autoinstallDefault ctl.keyCandidates := by
    simp only [Controller.keyCandidates, hk, ha, Option.toList_some, List.map_cons,
      List.map_nil, findAiData, Option.some_bind, AutoinstallConfig.rename, hlk, hla, hnk]
  simp only [Controller.setupAutoinstall, AutoinstallConfig.given_rename, hdata]

/-- With the alias renamed to the key in `interactive-sections`, `interactive()` is the
same: the key is listed where the alias was, and the alias nowhere. -/
lemma interactive_rename (hk : ctl.autoinstallKey = some k)
    (ha : ctl.autoinstallKeyAlias = some a) (hka : k ≠ a)
    (hki : k ∉ cfg.interactiveSections.getD []) :
    ctl.interactive (cfg.rename a k) = ctl.interactive cfg := by
  by_cases hg : cfg.given
  · rw [Controller.interactive_of_given hg,
      Controller.interactive_of_given ((AutoinstallConfig.given_rename a k cfg).trans hg)]
    have hsec : (cfg.rename a k).interactiveSections.getD [] =
        (cfg.interactiveSections.getD []).map fun x => if x = a then k else x := by
      cases cfg with
      | mk sections i => cases i <;> rfl
    have hsome (x : String) (l : List String) : some x ∈ l.map some ↔ x ∈ l := by simp
    have hk' : k ∈ (cfg.interactiveSections.getD []).map (fun x => if x = a then k else x) ↔
        a ∈ cfg.interactiveSections.getD [] := by
      rw [mem_map_rename]
      simp [hki]
    have ha' : a ∉ (cfg.interactiveSections.getD []).map (fun x => if x = a then k else x) := by
      rw [mem_map_rename]
      simp [Ne.symm hka]
    simp only [hsec, hk, ha, Option.isSome_some, true_and, hsome, hk', ha', hki, or_false,
      false_or, mem_or_rename]
  · simp [Controller.interactive, hg]

end Alias

/-- **The alias is a synonym.** For a controller with a key `k` and an alias `a`, a
config that names the section `a` and not `k` (in its sections and in
`interactive-sections`) is loaded, validated and treated as interactive exactly like the
same config with `a` renamed to `k`; a validation error names `k` either way. -/
theorem alias_is_synonym (ctl : Controller J) {k a : String} (hk : ctl.autoinstallKey = some k)
    (ha : ctl.autoinstallKeyAlias = some a) (hka : k ≠ a) (cfg : AutoinstallConfig J)
    (hks : k ∉ cfg.sections.map Prod.fst) (hki : k ∉ cfg.interactiveSections.getD []) :
    ctl.setupAutoinstall (cfg.rename a k) = ctl.setupAutoinstall cfg ∧
      ctl.interactive (cfg.rename a k) = ctl.interactive cfg :=
  ⟨setupAutoinstall_rename hk ha hka hks, interactive_rename hk ha hka hki⟩

/-- A controller `network` with the alias `net`, whose config names `net`: the section,
which fails the schema, gives the same error naming `network` either way. -/
theorem alias_is_synonym_net :
    let ctl : Controller Nat := ⟨some "network", some fun n => n < 10, none, some "net", none, true⟩
    let cfg : AutoinstallConfig Nat := ⟨[("net", some 42)], some ["net"]⟩
    ctl.setupAutoinstall cfg = .error ⟨some "network"⟩ ∧
      (ctl.setupAutoinstall (cfg.rename "net" "network") = ctl.setupAutoinstall cfg ∧
        ctl.interactive (cfg.rename "net" "network") = ctl.interactive cfg) := by
  intro ctl cfg
  exact ⟨rfl, alias_is_synonym ctl rfl rfl (by decide) cfg (by decide) (by decide)⟩

end Subiquity
