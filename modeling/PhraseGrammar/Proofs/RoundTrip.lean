/-
Dumping a store and reading the dump. The trip takes the spaces off the end of
every name and every value, and drops what is empty then; nothing else changes
(`ofScript_dump`). So a store comes back as it was exactly if no name and no
value in it ends in a space, every rule has options and no option is empty,
and after one trip every store is like that.

A script makes only rules with options and options with values. But it can end
a name or a value in a space: in `a \ ` the last space is padding and the
backslash that is left before it stands for nothing, so the value keeps the
space in the middle. Such a store does not come back.
-/
import PhraseGrammar.Proofs.DumpLines

namespace PhraseGrammar

/-- What a trip makes of a store: its options are added to an empty store, in
order, under names without the spaces that end them, with values without the
spaces that end them, unless nothing is left of the value. -/
def Store.trim (s : Store) : Store := Store.empty.addAll (trimAdditions s.additions)

/-- Neither the name nor a value of the rule ends in a space. -/
structure Rule.Trimmed (r : Rule) : Prop where
  name : r.name.getLast? ≠ some ' '
  values : ∀ o ∈ r.options, o.value.getLast? ≠ some ' '

/-- No name and no value ends in a space. -/
def Store.Trimmed (s : Store) : Prop := ∀ e ∈ s.rules, e.2.Trimmed

/-! ## One trip -/

/-- **Reading a dump** gives the trimmed store. -/
theorem ofScript_dump {s : Store} {d : Text} (h : s.dump = .ok d) : Store.ofScript d = .ok s.trim := by
  rw [Store.ofScript_eq_ok_iff, scriptAdditions_dump h]
  exact ⟨rfl, rfl⟩

theorem mem_trimAdditions {as : List Addition} {a : Addition} (h : a ∈ trimAdditions as) :
    ∃ b ∈ as, a = b.trim ∧ a.value ≠ [] := by
  simp only [trimAdditions, List.mem_filter, List.mem_map, Bool.not_eq_true',
    List.isEmpty_eq_false_iff] at h
  obtain ⟨⟨b, hb, rfl⟩, hne⟩ := h
  exact ⟨b, hb, rfl, hne⟩

theorem Store.wellFormed_trim (s : Store) : s.trim.WellFormed := Store.WellFormed.empty.addAll _

theorem Store.filled_trim (s : Store) : s.trim.Filled := by
  refine filled_addAll fun a ha => ?_
  obtain ⟨_, _, _, hne⟩ := mem_trimAdditions ha
  exact hne

theorem getLast?_trimEnd (t : Text) : (trimEnd t).getLast? ≠ some ' ' :=
  trimEnd_eq_self_iff.mp (trimEnd_trimEnd t)

theorem Store.trimmed_trim (s : Store) : s.trim.Trimmed := by
  intro e he
  obtain ⟨-, hne, hopts⟩ := addAll_provenance _ e he
  constructor
  · obtain ⟨o, ho⟩ := List.exists_mem_of_ne_nil _ hne
    obtain ⟨a, ha, hname, -⟩ := hopts o ho
    obtain ⟨b, -, rfl, -⟩ := mem_trimAdditions ha
    exact hname ▸ getLast?_trimEnd b.rule
  · intro o ho
    obtain ⟨a, ha, -, rfl⟩ := hopts o ho
    obtain ⟨b, -, rfl, -⟩ := mem_trimAdditions ha
    exact getLast?_trimEnd b.value

theorem tooLongToWrite_keptWeight {n : Nat} (h : tooLongToWrite n = false) :
    tooLongToWrite (keptWeight n) = false := by
  cases n with
  | zero => exact length_numeral_le_iff.mp (by decide)
  | succ n => rwa [keptWeight_of_pos (Nat.succ_pos n)]

theorem Store.Writable.addAll {s : Store} (hs : s.Writable) {as : List Addition}
    (h : ∀ a ∈ as, tooLongToWrite a.weight = false) : (s.addAll as).Writable := by
  refine addAll_forall (P := fun e => ∀ o ∈ e.2.options, tooLongToWrite o.weight = false) hs ?_ ?_
  · intro a ha o ho
    obtain rfl : o = ⟨a.value, keptWeight a.weight⟩ := by simpa [Rule.add, Rule.empty] using ho
    exact tooLongToWrite_keptWeight (h a ha)
  · intro a ha r hr o ho
    simp only [Rule.add, List.mem_append, List.mem_singleton] at ho
    rcases ho with ho | rfl
    · exact hr o ho
    · exact tooLongToWrite_keptWeight (h a ha)

theorem Store.writable_empty : Store.empty.Writable := by simp [Writable, empty]

theorem Store.writable_addAll {as : List Addition} (h : ∀ a ∈ as, tooLongToWrite a.weight = false) :
    (Store.empty.addAll as).Writable := writable_empty.addAll h

theorem Store.mem_additions {s : Store} {a : Addition} (h : a ∈ s.additions) :
    ∃ e ∈ s.rules, ∃ o ∈ e.2.options, a = ⟨e.2.name, o.value, o.weight⟩ := by
  simp only [additions, Rule.additions, List.mem_flatMap, List.mem_map] at h
  obtain ⟨e, he, o, ho, rfl⟩ := h
  exact ⟨e, he, o, ho, rfl⟩

theorem Store.writable_trim {s : Store} (h : s.Writable) : s.trim.Writable := by
  refine writable_addAll fun a ha => ?_
  obtain ⟨b, hb, rfl, -⟩ := mem_trimAdditions ha
  obtain ⟨e, he, o, ho, rfl⟩ := mem_additions hb
  exact h e he o ho

/-! ## Stores that come back -/

theorem trimAdditions_eq_self {as : List Addition} (h : ∀ a ∈ as, a.trim = a ∧ a.value ≠ []) :
    trimAdditions as = as := by
  have hmap : as.map Addition.trim = as :=
    (List.map_congr_left fun a ha => (h a ha).1).trans (List.map_id' as)
  rw [trimAdditions, hmap, List.filter_eq_self]
  intro a ha
  simpa using (h a ha).2

theorem Store.trim_eq_self {s : Store} (h : s.WellFormed) (hf : s.Filled) (ht : s.Trimmed) :
    s.trim = s := by
  have has : trimAdditions s.additions = s.additions := by
    refine trimAdditions_eq_self fun a ha => ?_
    obtain ⟨e, he, o, ho, rfl⟩ := mem_additions ha
    have hname := trimEnd_eq_self_iff.mpr (ht e he).name
    have hvalue := trimEnd_eq_self_iff.mpr ((ht e he).values o ho)
    exact ⟨by rw [Addition.trim, hname, hvalue], (hf e he).values o ho⟩
  rw [trim, has, addAll_additions h hf]

theorem Store.trim_trim (s : Store) : s.trim.trim = s.trim :=
  trim_eq_self s.wellFormed_trim s.filled_trim s.trimmed_trim

/-- A filled store comes back as it was exactly if it is trimmed. -/
theorem Store.trim_eq_self_iff {s : Store} (h : s.WellFormed) (hf : s.Filled) :
    s.trim = s ↔ s.Trimmed :=
  ⟨fun he => he ▸ s.trimmed_trim, trim_eq_self h hf⟩

/-- **One trip trims, and no more is changed by a second.** The dump of any
store reads back as the store trimmed; that store has a dump too, which reads
back as the same store. -/
theorem dump_trip {s : Store} {d : Text} (h : s.dump = .ok d) :
    Store.ofScript d = .ok s.trim ∧
      ∃ d', s.trim.dump = .ok d' ∧ Store.ofScript d' = .ok s.trim := by
  refine ⟨ofScript_dump h, ?_⟩
  obtain ⟨hw, -⟩ := Store.dump_eq_ok_iff.mp h
  have hd : s.trim.dump = .ok (joinWith ['\n'] s.trim.lines) :=
    Store.dump_eq_ok_iff.mpr ⟨Store.writable_trim hw, rfl⟩
  refine ⟨_, hd, ?_⟩
  rw [ofScript_dump hd, Store.trim_trim]

/-- Two rules that differ by a space become one, the rule without options goes,
and the option of spaces too. -/
theorem dump_trip_merges :
    let s : Store := (((Store.empty.ensure ['e']).add [' '] ['v', ' '] 2).add [] [' '] 1).add [] ['w'] 3
    let d : Text := "* e\n* \\ \n2:v \n* \n1: \n3:w".toList
    s.dump = .ok d ∧ Store.ofScript d = .ok s.trim ∧
      (∃ d', s.trim.dump = .ok d' ∧ Store.ofScript d' = .ok s.trim) ∧
      s.trim = ⟨[([], ⟨[], [⟨['v'], 2⟩, ⟨['w'], 3⟩], 5⟩)], some []⟩ := by
  intro s d
  have h : s.dump = .ok d := by decide +kernel
  exact ⟨h, (dump_trip h).1, (dump_trip h).2, by decide⟩

/-! ## Stores that a script makes -/

theorem Store.filled_ofScript {script : Text} {s : Store} (h : Store.ofScript script = .ok s) :
    s.Filled := by
  obtain ⟨-, rfl⟩ := ofScript_eq_ok_iff.mp h
  exact filled_addAll fun a ha => (scripted_of_mem_lineAdditions ha).value

theorem Store.writable_ofScript {script : Text} {s : Store} (h : Store.ofScript script = .ok s) :
    s.Writable := by
  obtain ⟨-, rfl⟩ := ofScript_eq_ok_iff.mp h
  exact writable_addAll fun a ha => (scripted_of_mem_lineAdditions ha).weight

theorem Store.wellFormed_ofScript {script : Text} {s : Store} (h : Store.ofScript script = .ok s) :
    s.WellFormed := by
  obtain ⟨-, rfl⟩ := ofScript_eq_ok_iff.mp h
  exact WellFormed.empty.addAll _

/-- **A store that a script makes always has a dump that can be read, and comes
back as it was, with the same dump, exactly if no name and no value in it ends
in a space.** -/
theorem ofScript_roundTrip_iff {script : Text} {s : Store} (h : Store.ofScript script = .ok s) :
    ∃ d s', s.dump = .ok d ∧ Store.ofScript d = .ok s' ∧
      ((s' = s ∧ s'.dump = .ok d) ↔ s.Trimmed) := by
  have hd : s.dump = .ok (joinWith ['\n'] s.lines) :=
    Store.dump_eq_ok_iff.mpr ⟨Store.writable_ofScript h, rfl⟩
  have hiff := Store.trim_eq_self_iff (Store.wellFormed_ofScript h) (Store.filled_ofScript h)
  refine ⟨_, _, hd, ofScript_dump hd, fun ⟨he, _⟩ => hiff.mp he, fun ht => ?_⟩
  have he := hiff.mpr ht
  exact ⟨he, by rw [he, hd]⟩

theorem ofScript_roundTrip_escapes :
    let s : Store := ⟨[([' ', 'a'], ⟨[' ', 'a'], [⟨['v', '\t'], 2⟩], 2⟩)], some [' ', 'a']⟩
    Store.ofScript "*\\ a\n2:v\\t".toList = .ok s ∧
      ∃ d s', s.dump = .ok d ∧ Store.ofScript d = .ok s' ∧
        ((s' = s ∧ s'.dump = .ok d) ↔ s.Trimmed) := by
  intro s
  have h : Store.ofScript "*\\ a\n2:v\\t".toList = .ok s := by decide
  exact ⟨h, ofScript_roundTrip_iff h⟩

/-- A value that a script ends in a space is not the value that comes back. -/
theorem padded_backslash_is_lost :
    let s : Store := ⟨[(['r'], ⟨['r'], [⟨['a', ' '], 1⟩], 1⟩)], some ['r']⟩
    let s' : Store := ⟨[(['r'], ⟨['r'], [⟨['a'], 1⟩], 1⟩)], some ['r']⟩
    Store.ofScript "*r\na \\ ".toList = .ok s ∧ s.dump = .ok "* r\n1:a ".toList ∧
      Store.ofScript "* r\n1:a ".toList = .ok s' ∧ s' ≠ s ∧ s'.dump ≠ s.dump := by
  decide +kernel

end PhraseGrammar
