/-
Which configurations are accepted, what is made of them, and what is said about the
others. A configuration is accepted exactly if settings answer to it
(`Settings.Describes`), and then these are its settings. If not, the fault is that of
the first check that fails (`Settings.load_checks`), in the order of `settingsChecks`.

Each function of the settings makes some of the checks, in their order (`Makes`); what
two computations check one after the other is the one list after the other
(`Makes.bind`), so each function is looked at alone.
-/
import PhraseGrammar.Proofs.LoadedSettings
import PhraseGrammar.Proofs.PathFacts

namespace PhraseGrammar

/-! ## Checks in an order -/

section Order

variable {κ ε α β : Type} {fails : κ → ε → Prop}

/-- The fault of the first check that fails. -/
inductive FirstFault (fails : κ → ε → Prop) : List κ → ε → Prop
  | here {k : κ} {ks : List κ} {e : ε} : fails k e → FirstFault fails (k :: ks) e
  | later {k : κ} {ks : List κ} {e : ε} : (∀ e', ¬ fails k e') → FirstFault fails ks e →
      FirstFault fails (k :: ks) e

theorem not_firstFault_nil {e : ε} : ¬ FirstFault fails [] e := nofun

theorem firstFault_cons {k : κ} {ks : List κ} {e : ε} :
    FirstFault fails (k :: ks) e ↔ fails k e ∨ (∀ e', ¬ fails k e') ∧ FirstFault fails ks e := by
  refine ⟨fun h => ?_, fun h => ?_⟩
  · cases h with
    | here h => exact .inl h
    | later hk h => exact .inr ⟨hk, h⟩
  · rcases h with h | ⟨hk, h⟩
    · exact .here h
    · exact .later hk h

theorem firstFault_singleton {k : κ} {e : ε} : FirstFault fails [k] e ↔ fails k e := by
  simp [firstFault_cons, not_firstFault_nil]

/-- A fault of two lists of checks is one of the first, or one of the second and the
first has none. -/
theorem firstFault_append {ks ls : List κ} {e : ε} :
    FirstFault fails (ks ++ ls) e ↔
      FirstFault fails ks e ∨ (∀ e', ¬ FirstFault fails ks e') ∧ FirstFault fails ls e := by
  induction ks with
  | nil => simp [not_firstFault_nil]
  | cons k ks ih =>
    rw [List.cons_append, firstFault_cons, firstFault_cons, ih]
    simp only [firstFault_cons]
    by_cases hk : ∃ e', fails k e'
    · obtain ⟨e', hk⟩ := hk
      have hnot : ¬ ∀ e', ¬ fails k e' := fun h => h e' hk
      simp [hnot]
    · have hnone : ∀ e', ¬ fails k e' := not_exists.mp hk
      simp [hnone]

theorem firstFault_iff {ks : List κ} {e : ε} : FirstFault fails ks e ↔
    ∃ before k after, ks = before ++ k :: after ∧ (∀ k' ∈ before, ∀ e', ¬ fails k' e') ∧ fails k e := by
  constructor
  · intro h
    induction h with
    | here h => exact ⟨[], _, _, rfl, nofun, h⟩
    | later hk _ ih =>
      obtain ⟨before, k, after, rfl, hpass, h⟩ := ih
      exact ⟨_ :: before, k, after, rfl, List.forall_mem_cons.mpr ⟨hk, hpass⟩, h⟩
  · rintro ⟨before, k, after, rfl, hpass, h⟩
    induction before with
    | nil => exact .here h
    | cons k' before ih =>
      obtain ⟨hk', hpass⟩ := List.forall_mem_cons.mp hpass
      exact .later hk' (ih hpass)

/-- A computation makes checks in their order: what it gives is what is `Good`, and its
fault that of the first check that fails. -/
structure Makes (fails : κ → ε → Prop) (ks : List κ) (x : Except ε α) (Good : α → Prop) : Prop where
  ok_iff : ∀ a, x = .ok a ↔ Good a
  error_iff : ∀ e, x = .error e ↔ FirstFault fails ks e

namespace Makes

variable {ks ls : List κ} {x : Except ε α} {P : α → Prop}

theorem of_total {k : κ} (hok : ∀ a, P a → x = .ok a) (herror : ∀ e, fails k e → x = .error e)
    (htotal : (∃ a, P a) ∨ ∃ e, fails k e) : Makes fails [k] x P := by
  rcases htotal with ⟨a, ha⟩ | ⟨e, he⟩
  · have hx := hok a ha
    have hpass : ∀ e, ¬ fails k e := fun e he => by simpa [hx] using herror e he
    refine ⟨fun b => ⟨fun h => ?_, hok b⟩, fun e => by simp [hx, firstFault_singleton, hpass]⟩
    obtain rfl : a = b := by simpa [hx] using h
    exact ha
  · have hx := herror e he
    have hnone : ∀ a, ¬ P a := fun a ha => by simpa [hx] using hok a ha
    refine ⟨fun b => by simp [hx, hnone], fun e' => ?_⟩
    rw [firstFault_singleton]
    refine ⟨fun h => ?_, herror e'⟩
    obtain rfl : e = e' := by simpa [hx] using h
    exact he

theorem pure (a : α) : Makes fails [] (Except.ok a) fun b => b = a where
  ok_iff b := by rw [Except.ok.injEq, eq_comm]
  error_iff e := by simp [not_firstFault_nil]

theorem bind {f : α → Except ε β} {Q : α → β → Prop} (hx : Makes fails ks x P)
    (hf : ∀ a, P a → Makes fails ls (f a) (Q a)) :
    Makes fails (ks ++ ls) (x >>= f) fun b => ∃ a, P a ∧ Q a b := by
  cases hcase : x with
  | error e =>
    -- the fault is one of the first checks, and the others are not reached
    subst hcase
    have hnone : ∀ a, ¬ P a := fun a ha => by simpa using (hx.ok_iff a).mpr ha
    have hfirst : FirstFault fails ks e := (hx.error_iff e).mp rfl
    refine ⟨fun b => ?_, fun e' => ?_⟩
    · exact iff_of_false nofun fun ⟨a, ha, _⟩ => hnone a ha
    · rw [firstFault_append, or_iff_left fun h => h.1 e hfirst, ← hx.error_iff e']
      exact ⟨fun h => by cases h; rfl, fun h => by cases h; rfl⟩
  | ok a =>
    subst hcase
    have ha : P a := (hx.ok_iff a).mp rfl
    have honly : ∀ a', P a' → a' = a := fun a' h => (Except.ok.inj ((hx.ok_iff a').mpr h)).symm
    have hpass : ∀ e, ¬ FirstFault fails ks e := fun e h => by simpa using (hx.error_iff e).mpr h
    refine ⟨fun b => ?_, fun e => ?_⟩
    · refine ((hf a ha).ok_iff b).trans ⟨fun h => ⟨a, ha, h⟩, ?_⟩
      rintro ⟨a', ha', h⟩
      exact honly a' ha' ▸ h
    · rw [firstFault_append, or_iff_right (hpass e), and_iff_right hpass]
      exact (hf a ha).error_iff e

theorem cons {k : κ} (hk : ∀ e, ¬ fails k e) (h : Makes fails ks x P) : Makes fails (k :: ks) x P where
  ok_iff := h.ok_iff
  error_iff e := by rw [firstFault_cons, or_iff_right (hk e), and_iff_right hk, h.error_iff]

theorem congr {Q : α → Prop} (h : Makes fails ks x P) (hks : ks = ls) (hPQ : ∀ a, P a ↔ Q a) :
    Makes fails ls x Q where
  ok_iff a := (h.ok_iff a).trans (hPQ a)
  error_iff e := hks ▸ h.error_iff e

end Makes

end Order

/-! ## What a configuration says -/

/-- The table of a section, with nothing in it if it is left out or is no table. -/
def sectionOf (table : Toml.Table) (s : Section) : Toml.Table :=
  match Toml.Table.get? table s.name with
  | some (.table t) => t
  | _ => []

/-- What the rule stands for. -/
def ruleOf? (table : Toml.Table) : Option Toml.Value :=
  Toml.Table.get? (sectionOf table .generation) "rule".toList

/-- What a setting stands for that is to be a whole number. -/
def numberOf? (table : Toml.Table) (s : NumberSetting) : Option Toml.Value :=
  Toml.Table.get? (sectionOf table s.home) s.key

/-- What the grammar files stand for. -/
def filesOf? (table : Toml.Table) : Option Toml.Value :=
  Toml.Table.get? (sectionOf table .generation) "files".toList

/-- What the host stands for. -/
def hostOf? (table : Toml.Table) : Option Toml.Value :=
  Toml.Table.get? (sectionOf table .serving) "host".toList

/-- What stands for the names of grammar files: the items of a list, or one text. -/
def listed (table : Toml.Table) : List Toml.Value :=
  match filesOf? table with
  | some (.string name) => [.string name]
  | some (.array items) => items
  | _ => []

/-- The place of a grammar file: a relative name starts from `base`, and its `..` are
worked out; an absolute one is left as it is. -/
def grammarPlace (tree : FileTree) (base : Path) (name : Text) : Path :=
  if (Path.ofText name).isAbsolute then .ofText name else (base.join (.ofText name)).resolve tree.cwd

/-- A relative name with a NUL, whose `..` cannot be worked out. -/
def Unresolvable (name : Text) : Prop := (Path.ofText name).isAbsolute = false ∧ '\x00' ∈ name

/-- The value is a name of a grammar file, which is there. -/
inductive NamesGrammar (tree : FileTree) (base : Path) : Toml.Value → Path → Prop
  | there {name : Text} : name.all isBlank = false → ¬ Unresolvable name →
      tree.holds (grammarPlace tree base name) = .ok true →
      NamesGrammar tree base (.string name) (grammarPlace tree base name)

/-- The settings for generation answer to what a configuration says: every value is of the
kind that is asked for, and what is left out has its default. -/
structure GenerationSettings.Describes (tree : FileTree) (base : Path) (table : Toml.Table)
    (g : GenerationSettings) : Prop where
  rule : ruleOf? table = g.rule.map .string
  count : numberOf? table .count = none ∧ g.count = GenerationSettings.default.count ∨
    numberOf? table .count = some (.integer g.count) ∧ 1 ≤ g.count
  list : ∀ v, filesOf? table = some v → (∃ name, v = .string name) ∨ ∃ items, v = .array items
  files : List.Forall₂ (NamesGrammar tree base) (listed table) g.files
  seed : numberOf? table .seed = g.seed.map .integer
  limit : numberOf? table .limit = g.limit.map fun n => .integer n
  one_le_limit : ∀ n, g.limit = some n → 1 ≤ n

/-- The settings for serving answer to it. -/
structure ServingSettings.Describes (table : Toml.Table) (s : ServingSettings) : Prop where
  port : numberOf? table .port = none ∧ s.port = ServingSettings.default.port ∨
    numberOf? table .port = some (.integer s.port)
  host : hostOf? table = none ∧ s.host = ServingSettings.default.host ∨
    ∃ v, hostOf? table = some v ∧ v.text = .ok s.host

/-- The settings answer to it, and its sections are tables. -/
structure Settings.Describes (tree : FileTree) (base : Path) (table : Toml.Table) (c : Settings) :
    Prop where
  tables : ∀ (s : Section) (v : Toml.Value), Toml.Table.get? table s.name = some v → ∃ t, v = .table t
  generation : c.generation.Describes tree base table
  serving : c.serving.Describes table

/-! ## What can be wrong with it -/

/-- The checks that are made on a configuration. -/
inductive SettingsCheck
  | table (s : Section)
  | rule
  | whole (s : NumberSetting)
  | positive (s : NumberSetting)
  | list
  | entry (v : Toml.Value)
  | host

/-- The checks of the section for generation, in their order. -/
def generationChecks (table : Toml.Table) : List SettingsCheck :=
  let entries := (listed table).map SettingsCheck.entry
  let numbers : List SettingsCheck := [.whole .seed, .whole .limit, .positive .limit]
  .rule :: .whole .count :: .positive .count :: .list :: (entries ++ numbers)

/-- All checks, in the order they are made. -/
def settingsChecks (table : Toml.Table) : List SettingsCheck :=
  let serving : List SettingsCheck := [.table .serving, .whole .port, .host]
  .table .generation :: (generationChecks table ++ serving)

/-- A check fails, with a fault. -/
inductive SettingsCheck.Fails (tree : FileTree) (base : Path) (table : Toml.Table) :
    SettingsCheck → SettingsFault → Prop
  | notATable {s : Section} {v : Toml.Value} : Toml.Table.get? table s.name = some v →
      (∀ t, v ≠ .table t) → Fails tree base table (.table s) (.invalid (.notATable s))
  | ruleNotText {v : Toml.Value} : ruleOf? table = some v → (∀ t, v ≠ .string t) →
      Fails tree base table .rule (.invalid .ruleNotText)
  | notWhole {s : NumberSetting} {v : Toml.Value} : numberOf? table s = some v →
      (∀ n, v ≠ .integer n) → Fails tree base table (.whole s) (.invalid (.notWhole s))
  | belowOne {s : NumberSetting} {n : Int} : numberOf? table s = some (.integer n) → n < 1 →
      Fails tree base table (.positive s) (.invalid (.belowOne s))
  | filesNotListed {v : Toml.Value} : filesOf? table = some v → (∀ name, v ≠ .string name) →
      (∀ items, v ≠ .array items) → Fails tree base table .list (.invalid .filesNotListed)
  | fileNotNamed {v : Toml.Value} : (∀ name, v = .string name → name.all isBlank = true) →
      Fails tree base table (.entry v) (.invalid .fileNotNamed)
  | grammarMissing {name : Text} : name.all isBlank = false → ¬ Unresolvable name →
      tree.holds (grammarPlace tree base name) = .ok false →
      Fails tree base table (.entry (.string name)) (.grammarMissing (grammarPlace tree base name))
  | nulInPath {name : Text} : name.all isBlank = false → Unresolvable name →
      Fails tree base table (.entry (.string name)) .nulInPath
  | grammarUnnamable {name : Text} {e : FileError} : name.all isBlank = false → ¬ Unresolvable name →
      tree.holds (grammarPlace tree base name) = .error e →
      Fails tree base table (.entry (.string name)) (.grammarUnnamable e)
  | hostWithoutText {v : Toml.Value} {e : Toml.TextFault} : hostOf? table = some v →
      v.text = .error e → Fails tree base table .host (.hostWithoutText e)

/-! ## Each function makes its checks -/

theorem exists_map_or {α β : Type} (value : Option α) (kind : β → α) :
    (∃ b? : Option β, value = b?.map kind) ∨ ∃ a, value = some a ∧ ∀ b, a ≠ kind b := by
  cases value with
  | none => exact .inl ⟨none, rfl⟩
  | some a =>
    by_cases ha : ∃ b, a = kind b
    · obtain ⟨b, rfl⟩ := ha
      exact .inl ⟨some b, rfl⟩
    · exact .inr ⟨a, rfl, not_exists.mp ha⟩

theorem exists_map_of_forall {α β : Type} {value : Option α} {kind : β → α}
    (h : ∀ a, value = some a → ∃ b, a = kind b) : ∃ b? : Option β, value = b?.map kind :=
  (exists_map_or value kind).resolve_right fun ⟨a, ha, hne⟩ => (h a ha).elim hne

theorem exists_eq_of_map_eq_some {α β : Type} {b? : Option β} {kind : β → α} {a : α}
    (h : b?.map kind = some a) : ∃ b, a = kind b := by
  obtain ⟨b, -, rfl⟩ := Option.map_eq_some_iff.mp h
  exact ⟨b, rfl⟩

section Functions

variable {tree : FileTree} {base : Path} {table : Toml.Table}

theorem sectionTable_makes (s : Section) :
    Makes (SettingsCheck.Fails tree base table) [.table s] (sectionTable s table)
      fun t? => Toml.Table.get? table s.name = t?.map .table := by
  refine .of_total (fun t? h => ?_) (fun e h => ?_) ?_
  · rw [sectionTable, h]
    cases t? <;> rfl
  · cases h with
    | @notATable _ v hv hne =>
      rw [sectionTable, hv]
      cases v <;> first | rfl | exact absurd rfl (hne _)
  · exact (exists_map_or _ _).imp_right fun ⟨_, hv, hne⟩ => ⟨_, .notATable hv hne⟩

theorem ruleSetting_makes :
    Makes (SettingsCheck.Fails tree base table) [.rule] (ruleSetting (sectionOf table .generation))
      fun rule => ruleOf? table = rule.map .string := by
  refine .of_total (fun t? h => ?_) (fun e h => ?_) ?_
  · rw [ruleSetting, ← ruleOf?, h]
    cases t? <;> rfl
  · cases h with
    | @ruleNotText v hv hne =>
      rw [ruleSetting, ← ruleOf?, hv]
      cases v <;> first | rfl | exact absurd rfl (hne _)
  · exact (exists_map_or _ _).imp_right fun ⟨_, hv, hne⟩ => ⟨_, .ruleNotText hv hne⟩

theorem wholeSetting_makes (s : NumberSetting) :
    Makes (SettingsCheck.Fails tree base table) [.whole s] (wholeSetting s (sectionOf table s.home))
      fun n? => numberOf? table s = n?.map .integer := by
  refine .of_total (fun n? h => ?_) (fun e h => ?_) ?_
  · rw [wholeSetting, ← numberOf?, h]
    cases n? <;> rfl
  · cases h with
    | @notWhole _ v hv hne =>
      rw [wholeSetting, ← numberOf?, hv]
      cases v <;> first | rfl | exact absurd rfl (hne _)
  · exact (exists_map_or _ _).imp_right fun ⟨_, hv, hne⟩ => ⟨_, .notWhole hv hne⟩

/-- The bound of a number that may be left out. -/
def boundSetting (s : NumberSetting) : Option Int → Except SettingsFault (Option Nat)
  | none => .ok none
  | some n => if n < 1 then .error (.invalid (.belowOne s)) else .ok (some n.toNat)

theorem positiveSetting_eq (s : NumberSetting) (t : Toml.Table) :
    positiveSetting s t = wholeSetting s t >>= boundSetting s := by
  rw [positiveSetting]
  cases wholeSetting s t with
  | error e => rfl
  | ok n? => cases n? <;> rfl

theorem boundSetting_makes {s : NumberSetting} {n? : Option Int} (hn? : numberOf? table s = n?.map .integer) :
    Makes (SettingsCheck.Fails tree base table) [.positive s] (boundSetting s n?)
      fun m? => n? = m?.map Int.ofNat ∧ ∀ m, m? = some m → 1 ≤ m := by
  refine .of_total (fun m? h => ?_) (fun e h => ?_) ?_
  · obtain ⟨rfl, hpos⟩ := h
    cases m? with
    | none => rfl
    | some m =>
      have hm : ¬ (Int.ofNat m < 1) := by
        have := hpos m rfl
        rw [Int.ofNat_eq_natCast]
        omega
      rw [Option.map_some, boundSetting, if_neg hm]
      rfl
  · cases h with
    | @belowOne _ n hn hlow =>
      obtain rfl : n? = some n := by
        rw [hn?] at hn
        cases n? with
        | none => cases hn
        | some n' => simpa using hn
      exact if_pos hlow
  · cases n? with
    | none => exact .inl ⟨none, rfl, nofun⟩
    | some n =>
      by_cases hlow : n < 1
      · exact .inr ⟨_, .belowOne hn? hlow⟩
      · refine .inl ⟨some n.toNat, congrArg some (Int.toNat_of_nonneg (by omega)).symm, fun m hm => ?_⟩
        obtain rfl := Option.some.inj hm
        omega

theorem positiveSetting_makes (s : NumberSetting) :
    Makes (SettingsCheck.Fails tree base table) [.whole s, .positive s]
      (positiveSetting s (sectionOf table s.home))
      fun m? => numberOf? table s = m?.map (fun m => .integer m) ∧ ∀ m, m? = some m → 1 ≤ m := by
  rw [positiveSetting_eq]
  refine ((wholeSetting_makes s).bind fun _ => boundSetting_makes).congr rfl fun m? => ?_
  constructor
  · rintro ⟨n?, hn?, rfl, hpos⟩
    exact ⟨by rw [hn?, Option.map_map]; rfl, hpos⟩
  · rintro ⟨hm?, hpos⟩
    exact ⟨m?.map Int.ofNat, by rw [hm?, Option.map_map]; rfl, rfl, hpos⟩

/-! ### Grammar files -/

theorem grammarPath_of_unresolvable (hbase : base.hasNul = false) {name : Text} (h : Unresolvable name) :
    grammarPath tree base name = .error .nulInPath := by
  have hnul : (base.join (.ofText name)).hasNul = true := by
    rw [Path.hasNul_join hbase, Path.hasNul_ofText]
    exact h.2
  rw [grammarPath, if_neg (by simp [h.1]), if_pos hnul]

theorem grammarPath_of_resolvable (hbase : base.hasNul = false) {name : Text} (h : ¬ Unresolvable name) :
    grammarPath tree base name = .ok (grammarPlace tree base name) := by
  rw [grammarPath, grammarPlace]
  split
  · rfl
  · next hrelative =>
    refine if_neg fun hnul => h ⟨by simpa using hrelative, ?_⟩
    rwa [Path.hasNul_join hbase, Path.hasNul_ofText] at hnul

/-- What is asked of the tree about a name that is no blank and can be resolved. -/
theorem fileSetting_of_name (hbase : base.hasNul = false) {name : Text} (hfull : name.all isBlank = false)
    (h : ¬ Unresolvable name) {p : Path} (hp : grammarPlace tree base name = p) :
    fileSetting tree base (.string name) =
      (tree.holds p).mapError .grammarUnnamable >>= fun there =>
        if there then .ok p else .error (.grammarMissing p) := by
  rw [fileSetting, if_neg (by simp [hfull]), grammarPath_of_resolvable hbase h, hp]
  simp only
  cases tree.holds p with
  | error e => rfl
  | ok there => cases there <;> rfl

theorem fileSetting_makes (hbase : base.hasNul = false) (v : Toml.Value) :
    Makes (SettingsCheck.Fails tree base table) [.entry v] (fileSetting tree base v)
      (NamesGrammar tree base v) := by
  refine .of_total (fun p h => ?_) (fun e h => ?_) ?_
  · cases h with
    | there hfull hname hthere =>
      rw [fileSetting_of_name hbase hfull hname rfl, hthere]
      rfl
  · cases h with
    | fileNotNamed hblank =>
      cases v with
      | string name => rw [fileSetting, if_pos (hblank name rfl)]
      | _ => rfl
    | nulInPath hfull hname =>
      rw [fileSetting, if_neg (by simp [hfull]), grammarPath_of_unresolvable hbase hname]
    | grammarMissing hfull hname hholds | grammarUnnamable hfull hname hholds =>
      rw [fileSetting_of_name hbase hfull hname rfl, hholds]
      rfl
  · by_cases hnamed : ∃ name, v = .string name ∧ name.all isBlank = false
    · obtain ⟨name, rfl, hfull⟩ := hnamed
      by_cases hname : Unresolvable name
      · exact .inr ⟨_, .nulInPath hfull hname⟩
      cases hholds : tree.holds (grammarPlace tree base name) with
      | error e => exact .inr ⟨_, .grammarUnnamable hfull hname hholds⟩
      | ok there =>
        cases there with
        | true => exact .inl ⟨_, .there hfull hname hholds⟩
        | false => exact .inr ⟨_, .grammarMissing hfull hname hholds⟩
    · refine .inr ⟨_, .fileNotNamed fun name hv => ?_⟩
      by_contra hfull
      exact hnamed ⟨name, hv, by simpa using hfull⟩

theorem fileSettings_makes (hbase : base.hasNul = false) (vs : List Toml.Value) :
    Makes (SettingsCheck.Fails tree base table) (vs.map .entry) (fileSettings tree base vs)
      (List.Forall₂ (NamesGrammar tree base) vs) := by
  induction vs with
  | nil => exact (Makes.pure []).congr rfl fun ps => by simp
  | cons v vs ih =>
    have hcons : fileSettings tree base (v :: vs) =
        fileSetting tree base v >>= fun p => fileSettings tree base vs >>= fun ps => .ok (p :: ps) := by
      rw [fileSettings]
      cases fileSetting tree base v with
      | error e => rfl
      | ok p => cases fileSettings tree base vs <;> rfl
    rw [hcons]
    refine ((fileSetting_makes hbase v).bind fun p _ => ih.bind fun ps _ => .pure (p :: ps)).congr
      (by simp) fun ps => ?_
    simp only [List.forall₂_cons_left_iff, exists_and_left]

theorem filesSetting_makes (hbase : base.hasNul = false) :
    Makes (SettingsCheck.Fails tree base table) (.list :: (listed table).map .entry)
      (filesSetting tree base (sectionOf table .generation)) fun ps =>
        (∀ v, filesOf? table = some v → (∃ name, v = .string name) ∨ ∃ items, v = .array items) ∧
          List.Forall₂ (NamesGrammar tree base) (listed table) ps := by
  by_cases hlist : ∀ v, filesOf? table = some v → (∃ name, v = .string name) ∨ ∃ items, v = .array items
  · have hsetting : filesSetting tree base (sectionOf table .generation) =
        fileSettings tree base (listed table) := by
      rw [filesSetting, listed, ← filesOf?]
      cases hv : filesOf? table with
      | none => rfl
      | some v => rcases hlist v hv with ⟨name, rfl⟩ | ⟨items, rfl⟩ <;> rfl
    have hpass (e : SettingsFault) : ¬ SettingsCheck.Fails tree base table .list e := by
      intro h
      cases h with
      | filesNotListed hv hname hitems =>
        rcases hlist _ hv with ⟨name, rfl⟩ | ⟨items, rfl⟩
        · exact hname name rfl
        · exact hitems items rfl
    rw [hsetting]
    exact ((fileSettings_makes hbase (listed table)).cons hpass).congr rfl fun ps => (and_iff_right hlist).symm
  · -- neither a text nor a list: then nothing is listed, and this check is the only one
    push Not at hlist
    obtain ⟨v, hv, hname, hitems⟩ := hlist
    have hnone : listed table = [] := by
      rw [listed, hv]
      cases v <;> first | rfl | exact absurd rfl (hname _) | exact absurd rfl (hitems _)
    rw [hnone]
    refine .of_total (fun ps h => ?_) (fun e h => ?_) (.inr ⟨_, .filesNotListed hv hname hitems⟩)
    · rcases h.1 v hv with ⟨name, rfl⟩ | ⟨items, rfl⟩
      · exact absurd rfl (hname name)
      · exact absurd rfl (hitems items)
    · cases h
      rw [filesSetting, ← filesOf?, hv]
      cases v <;> first | rfl | exact absurd rfl (hname _) | exact absurd rfl (hitems _)

/-! ### Sections -/

theorem hostSetting_makes :
    Makes (SettingsCheck.Fails tree base table) [.host] (hostSetting (sectionOf table .serving)) fun host =>
      hostOf? table = none ∧ host = ServingSettings.default.host ∨
        ∃ v, hostOf? table = some v ∧ v.text = .ok host := by
  refine .of_total (fun host h => ?_) (fun e h => ?_) ?_
  · rcases h with ⟨hv, rfl⟩ | ⟨v, hv, htext⟩
    · rw [hostSetting, ← hostOf?, hv]
    · rw [hostSetting, ← hostOf?, hv]
      simp only [htext, Except.mapError]
  · cases h with
    | hostWithoutText hv htext =>
      rw [hostSetting, ← hostOf?, hv]
      simp only [htext, Except.mapError]
  · cases hv : hostOf? table with
    | none => exact .inl ⟨_, .inl ⟨rfl, rfl⟩⟩
    | some v =>
      cases htext : v.text with
      | ok host => exact .inl ⟨host, .inr ⟨v, rfl, htext⟩⟩
      | error e => exact .inr ⟨_, .hostWithoutText hv htext⟩

theorem GenerationSettings.ofTable_makes (hbase : base.hasNul = false) :
    Makes (SettingsCheck.Fails tree base table) (generationChecks table)
      (GenerationSettings.ofTable tree base (sectionOf table .generation))
      (GenerationSettings.Describes tree base table) := by
  refine (ruleSetting_makes.bind fun rule _ => (positiveSetting_makes .count).bind fun count? _ =>
    (filesSetting_makes hbase).bind fun files _ => (wholeSetting_makes .seed).bind fun seed _ =>
      (positiveSetting_makes .limit).bind fun limit _ =>
        .pure (GenerationSettings.mk files rule (count?.getD 1) seed limit)).congr
    (by simp [generationChecks]) fun g => ⟨?_, fun h => ?_⟩
  · rintro ⟨rule, hrule, count?, ⟨hcount, hpos⟩, files, ⟨hlist, hfiles⟩, seed, hseed, limit,
      ⟨hlimit, hlow⟩, rfl⟩
    refine ⟨hrule, ?_, hlist, hfiles, hseed, hlimit, hlow⟩
    cases count? with
    | none => exact .inl ⟨hcount, rfl⟩
    | some count => exact .inr ⟨hcount, hpos count rfl⟩
  · rcases h.count with ⟨hcount, hone⟩ | ⟨hcount, hpos⟩
    · refine ⟨g.rule, h.rule, none, ⟨hcount, nofun⟩, g.files, ⟨h.list, h.files⟩, g.seed, h.seed, g.limit,
        ⟨h.limit, h.one_le_limit⟩, ?_⟩
      rw [Option.getD_none]
      exact congrArg (GenerationSettings.mk g.files g.rule · g.seed g.limit) hone
    · exact ⟨g.rule, h.rule, some g.count, ⟨hcount, fun n hn => Option.some.inj hn ▸ hpos⟩, g.files,
        ⟨h.list, h.files⟩, g.seed, h.seed, g.limit, ⟨h.limit, h.one_le_limit⟩, rfl⟩

theorem ServingSettings.ofTable_makes :
    Makes (SettingsCheck.Fails tree base table) [.whole .port, .host]
      (ServingSettings.ofTable (sectionOf table .serving)) (ServingSettings.Describes table) := by
  refine ((wholeSetting_makes .port).bind fun port? _ => hostSetting_makes.bind fun host _ =>
    .pure (ServingSettings.mk host (port?.getD ServingSettings.default.port))).congr rfl
    fun s => ⟨?_, fun h => ?_⟩
  · rintro ⟨port?, hport, host, hhost, rfl⟩
    refine ⟨?_, hhost⟩
    cases port? with
    | none => exact .inl ⟨hport, rfl⟩
    | some port => exact .inr hport
  · rcases h.port with ⟨hport, hdefault⟩ | hport
    · refine ⟨none, hport, s.host, h.host, ?_⟩
      rw [Option.getD_none, ← hdefault]
    · exact ⟨some s.port, hport, s.host, h.host, rfl⟩

/-- A section that is left out is one with nothing in it. -/
theorem sectionTable_bind {α β : Type} (s : Section) (table : Toml.Table) (left : α)
    (ofTable : Toml.Table → Except SettingsFault α) (hleft : ofTable [] = .ok left)
    (next : α → Except SettingsFault β) :
    (sectionTable s table >>= fun
      | none => Pure.pure left >>= next
      | some t => ofTable t >>= next) =
      sectionTable s table >>= fun _ => ofTable (sectionOf table s) >>= next := by
  rw [sectionTable, sectionOf]
  cases Toml.Table.get? table s.name with
  | none => exact congrArg (· >>= next) hleft.symm
  | some v => cases v <;> rfl

theorem Settings.ofTable_eq : Settings.ofTable tree base table =
    sectionTable .generation table >>= fun _ =>
      GenerationSettings.ofTable tree base (sectionOf table .generation) >>= fun generation =>
        sectionTable .serving table >>= fun _ =>
          ServingSettings.ofTable (sectionOf table .serving) >>= fun serving => .ok ⟨generation, serving⟩ := by
  -- the section for serving first: it is read after the other one, so deeper in the term
  have hserving (g : GenerationSettings) := sectionTable_bind .serving table
    ServingSettings.default ServingSettings.ofTable rfl fun serving => .ok (Settings.mk g serving)
  refine (sectionTable_bind .generation table GenerationSettings.default
    (GenerationSettings.ofTable tree base) rfl _).trans ?_
  exact congrArg (sectionTable .generation table >>= ·) <| funext fun _ =>
    congrArg (GenerationSettings.ofTable tree base (sectionOf table .generation) >>= ·) (funext hserving)

theorem Settings.ofTable_makes (hbase : base.hasNul = false) :
    Makes (SettingsCheck.Fails tree base table) (settingsChecks table) (Settings.ofTable tree base table)
      (Settings.Describes tree base table) := by
  rw [Settings.ofTable_eq]
  refine ((sectionTable_makes .generation).bind fun _ _ => (GenerationSettings.ofTable_makes hbase).bind
    fun generation _ => (sectionTable_makes .serving).bind fun _ _ => ServingSettings.ofTable_makes.bind
      fun serving _ => .pure (Settings.mk generation serving)).congr (by simp [settingsChecks]) fun c =>
        ⟨?_, fun h => ?_⟩
  · rintro ⟨t?, ht, generation, hgeneration, u?, hu, serving, hserving, rfl⟩
    refine ⟨fun s v hv => ?_, hgeneration, hserving⟩
    cases s with
    | generation => exact exists_eq_of_map_eq_some (ht.symm.trans hv)
    | serving => exact exists_eq_of_map_eq_some (hu.symm.trans hv)
  · obtain ⟨t?, ht⟩ := exists_map_of_forall (h.tables .generation)
    obtain ⟨u?, hu⟩ := exists_map_of_forall (h.tables .serving)
    exact ⟨t?, ht, c.generation, h.generation, u?, hu, c.serving, h.serving, rfl⟩

end Functions

/-! ## Loading -/

theorem hasNul_of_readConfiguration {tree : FileTree} {p : Path} {table : Toml.Table}
    (h : readConfiguration tree p = .ok table) : p.hasNul = false := by
  have hholds : tree.holds p = .ok true := by
    unfold readConfiguration at h
    split at h
    · cases h
    · cases h
    · assumption
  cases hnul : p.hasNul with
  | false => rfl
  | true =>
    rw [FileTree.holds, if_pos hnul] at hholds
    cases hholds

theorem isAbsolute_grammarPlace (tree : FileTree) (base : Path) (name : Text) :
    (grammarPlace tree base name).isAbsolute = true := by
  unfold grammarPlace
  split
  · assumption
  · rfl

theorem follow_fault {tree : FileTree} {place parts : List Text} {fault : Path → FileError}
    (h : tree.follow place parts = .error fault)
    (hshort : ∀ part ∈ parts, Path.octetCount part ≤ Path.componentLimit) :
    fault = .missing ∨ fault = .notADirectory := by
  induction parts generalizing place with
  | nil =>
    unfold FileTree.follow at h
    split at h
    · cases h
    · cases h
      exact .inl rfl
  | cons part parts ih =>
    rw [List.forall_mem_cons] at hshort
    unfold FileTree.follow at h
    split at h
    · cases h
      exact .inl rfl
    · cases h
      exact .inr rfl
    · rw [if_neg (Nat.not_lt.mpr hshort.1)] at h
      exact ih h hshort.2

/-- Whether there is something at a path can be told if none of its names is too long,
and it is not. -/
theorem holds_of_short (tree : FileTree) {p : Path}
    (hparts : ∀ part ∈ p.parts, Path.octetCount part ≤ Path.componentLimit)
    (htext : Path.octetCount p.text ≤ Path.pathLimit) : ∃ there, tree.holds p = .ok there := by
  unfold FileTree.holds FileTree.find
  rw [if_neg (Nat.not_lt.mpr htext)]
  split
  · exact ⟨false, rfl⟩
  · cases hfollow : tree.follow (if p.isAbsolute then [] else tree.cwd) p.parts with
    | ok e => exact ⟨true, rfl⟩
    | error fault =>
      rcases follow_fault hfollow hparts with rfl | rfl <;> exact ⟨false, rfl⟩

/-- The files that a configuration names can be asked for, and its host can be written. -/
structure Answerable (tree : FileTree) (base : Path) (table : Toml.Table) : Prop where
  resolvable : ∀ name, .string name ∈ listed table → ¬ Unresolvable name
  asked : ∀ name, .string name ∈ listed table →
    ∃ there, tree.holds (grammarPlace tree base name) = .ok there
  host : ∀ v, hostOf? table = some v → ∃ t, v.text = .ok t

section Loading

variable {tree : FileTree} {base : Path} {table : Toml.Table}

theorem mem_listed_of_entry {v : Toml.Value} (h : .entry v ∈ settingsChecks table) : v ∈ listed table := by
  simpa [settingsChecks, generationChecks] using h

theorem Answerable.fault (h : Answerable tree base table) {f : SettingsFault}
    (hfault : FirstFault (SettingsCheck.Fails tree base table) (settingsChecks table) f) :
    (∃ e, f = .invalid e) ∨ ∃ name, .string name ∈ listed table ∧
      tree.holds (grammarPlace tree base name) = .ok false ∧
      f = .grammarMissing (grammarPlace tree base name) := by
  obtain ⟨before, k, after, hsplit, -, hfails⟩ := firstFault_iff.mp hfault
  have hk : k ∈ settingsChecks table := hsplit ▸ by simp
  cases hfails with
  | notATable | ruleNotText | notWhole | belowOne | filesNotListed | fileNotNamed => exact .inl ⟨_, rfl⟩
  | grammarMissing _ _ hholds => exact .inr ⟨_, mem_listed_of_entry hk, hholds, rfl⟩
  | nulInPath _ hname => exact absurd hname (h.resolvable _ (mem_listed_of_entry hk))
  | grammarUnnamable _ _ hholds =>
    obtain ⟨there, hthere⟩ := h.asked _ (mem_listed_of_entry hk)
    rw [hholds] at hthere
    cases hthere
  | hostWithoutText hv htext =>
    obtain ⟨t, ht⟩ := h.host _ hv
    rw [htext] at ht
    cases ht

theorem isAbsolute_of_named {vs : List Toml.Value} {ps : List Path}
    (h : List.Forall₂ (NamesGrammar tree base) vs ps) : ∀ p ∈ ps, p.isAbsolute = true := by
  induction h with
  | nil => simp
  | cons hv _ ih =>
    cases hv with
    | there => exact List.forall_mem_cons.mpr ⟨isAbsolute_grammarPlace tree base _, ih⟩

/-- **A configuration is accepted exactly if settings answer to it.** They are then what is
made of it, with one absolute path for each entry of the files. If there are none, the fault
is that of the first check that fails; and if the files can be asked for and the host can
be written, then a value is not allowed or a grammar file is not there. -/
theorem Settings.load_checks {p : Path} (htable : readConfiguration tree p = .ok table) :
    (∀ c, Settings.load tree p = .ok c ↔ c.Describes tree p.parent table) ∧
      (∀ c, Settings.load tree p = .ok c →
        c.generation.files.length = (listed table).length ∧ ∀ q ∈ c.generation.files, q.isAbsolute = true) ∧
      (∀ e, Settings.load tree p = .error e ↔ ∃ f, e = .values f ∧
        FirstFault (SettingsCheck.Fails tree p.parent table) (settingsChecks table) f) ∧
      (Answerable tree p.parent table → ∀ e, Settings.load tree p = .error e →
        (∃ i, e = .values (.invalid i)) ∨ ∃ name, .string name ∈ listed table ∧
          tree.holds (grammarPlace tree p.parent name) = .ok false ∧
          e = .values (.grammarMissing (grammarPlace tree p.parent name))) := by
  have hmakes : Makes (SettingsCheck.Fails tree p.parent table) (settingsChecks table)
      (Settings.ofTable tree p.parent table) (Settings.Describes tree p.parent table) :=
    Settings.ofTable_makes (Path.hasNul_parent (hasNul_of_readConfiguration htable))
  have hload := Settings.load_of_read htable
  have hok (c : Settings) : Settings.load tree p = .ok c ↔ c.Describes tree p.parent table := by
    rw [← hmakes.ok_iff, hload]
    cases Settings.ofTable tree p.parent table <;> simp [Except.mapError]
  have herror (e : SettingsError) : Settings.load tree p = .error e ↔ ∃ f, e = .values f ∧
      FirstFault (SettingsCheck.Fails tree p.parent table) (settingsChecks table) f := by
    simp only [← hmakes.error_iff, hload]
    cases Settings.ofTable tree p.parent table <;> simp [Except.mapError, eq_comm]
  refine ⟨hok, fun c hc => ?_, herror, fun hanswerable e he => ?_⟩
  · have hfiles := ((hok c).mp hc).generation.files
    exact ⟨hfiles.length_eq.symm, isAbsolute_of_named hfiles⟩
  · obtain ⟨f, rfl, hfault⟩ := (herror e).mp he
    rcases hanswerable.fault hfault with ⟨i, rfl⟩ | ⟨name, hname, hholds, rfl⟩
    · exact .inl ⟨i, rfl⟩
    · exact .inr ⟨name, hname, hholds, rfl⟩

end Loading

/-- A count that is a text is the fault even if a grammar file is not there. -/
theorem count_checked_before_files :
    let path : Path := ⟨[], [['c']]⟩
    let tree : FileTree :=
      ⟨[([['w'], ['c']], .ascii "[psr]\nfiles=\"m\"\ncount=\"0\"".toList)], [['w']]⟩
    let table : Toml.Table :=
      [("psr".toList, .table [("files".toList, .string ['m']), ("count".toList, .string ['0'])])]
    readConfiguration tree path = .ok table ∧ Answerable tree path.parent table ∧
      tree.holds (grammarPlace tree path.parent ['m']) = .ok false ∧
      Settings.load tree path = .error (.values (.invalid (.notWhole .count))) := by
  intro path tree table
  have htable : readConfiguration tree path = .ok table := by cbv
  have hanswerable : Answerable tree path.parent table := by
    have honly {name : Text} (h : .string name ∈ listed table) : name = ['m'] := by
      have hlisted : listed table = [.string ['m']] := rfl
      simpa [hlisted] using h
    refine ⟨fun name h => ?_, fun name h => ?_, fun v hv => ?_⟩
    · rw [honly h]
      exact fun hnul => by simpa using hnul.2
    · rw [honly h]
      exact holds_of_short tree (by decide) (by decide)
    · cases hv
  obtain ⟨-, -, herror, -⟩ := Settings.load_checks htable
  refine ⟨htable, hanswerable, by decide, (herror _).mpr ⟨_, rfl, ?_⟩⟩
  refine .later (fun e h => ?_) (.later (fun e h => ?_) (.here (.notWhole rfl fun n hn => ?_)))
  · cases h with
    | notATable hv hne => exact hne _ (Option.some.inj hv).symm
  · cases h with
    | ruleNotText hv => cases hv
  · cases hn

/-- These are not all faults: a relative name with a NUL cannot be resolved, a name of 256
octets cannot be asked for, and a host of too many digits cannot be written. -/
theorem faults_of_unanswerable :
    let path : Path := ⟨[], [['c']]⟩
    let tree : FileTree :=
      ⟨[([['w'], ['c']], .ascii "[psr]\nfiles=\"a\\u0000\"".toList)], [['w']]⟩
    let long : Text := List.replicate 256 'a'
    tree.holds (grammarPlace tree path.parent ['a', '\x00']) = .ok false ∧
      Settings.load tree path = .error (.values .nulInPath) ∧
      fileSetting tree path.parent (.string long) =
        .error (.grammarUnnamable (.nameTooLong ⟨['/'], [['w'], long]⟩)) ∧
      hostSetting [("host".toList, .integer (10 ^ digitLimit))] =
        .error (.hostWithoutText (.numeral .writing)) := by
  intro path tree long
  have hread : readConfiguration tree path =
      .ok [("psr".toList, .table [("files".toList, .string ['a', '\x00'])])] := by cbv
  -- of variables, so that the power is not worked out
  have hhost (n : Int) (h : tooLongToWrite n = true) :
      hostSetting [("host".toList, .integer n)] = .error (.hostWithoutText (.numeral .writing)) := by
    have hinteger : hostSetting [("host".toList, .integer n)] =
        (Toml.integerText n).mapError .hostWithoutText := rfl
    rw [hinteger, Toml.integerText, if_pos h]
    rfl
  have hpower (k : Nat) : Nat.pow 10 k ≤ ((10 : Int) ^ k).natAbs := by
    rw [Int.natAbs_pow]
    exact le_refl _
  exact ⟨by decide, Settings.load_of_read hread, by decide +kernel,
    hhost _ (decide_eq_true (hpower digitLimit))⟩

end PhraseGrammar
