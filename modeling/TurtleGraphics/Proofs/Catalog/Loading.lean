import Mathlib.Data.List.Forall2
import Mathlib.Data.List.Induction
import Mathlib.Data.List.Nodup
import TurtleGraphics.Catalog
import TurtleGraphics.Proofs.Outcome

/-!
# Loading a catalog

A catalog is loaded as a whole or not at all. What decides is the first entry that is no level or
has the id of an earlier one: if there is one, its fault is that of the catalog, whatever comes
after it; if there is none, the levels are those of the entries in order, and an id leads to at most
one of them. Main statement: `Catalog.ofString_loads`.
-/

namespace TurtleGraphics.Catalog

/-- Whether the entries are these levels in order, each with an id of its own. -/
structure Holds (entries : List Json) (levels : List Level) : Prop where
  decoded : List.Forall₂ (fun entry level ↦ Level.ofJson entry = .ok level) entries levels
  distinct : (levels.map Level.id).Nodup

/-- What is wrong with the entry at index `i`: it is no level, or has the id of an earlier one. -/
inductive FaultAt (entries : List Json) (i : Nat) : Fault → Prop
  | malformed {entry : Json} {misfit : Level.Misfit} (hi : entries[i]? = some entry)
      (h : Level.ofJson entry = .error misfit) : FaultAt entries i (.malformed i misfit)
  | duplicate {entry earlier : Json} {level level' : Level} {j : Nat}
      (hi : entries[i]? = some entry) (h : Level.ofJson entry = .ok level) (hji : j < i)
      (hj : entries[j]? = some earlier) (h' : Level.ofJson earlier = .ok level')
      (hid : level'.id = level.id) : FaultAt entries i (.duplicate level.id)

variable {entries : List Json} {levels before : List Level} {i j : Nat} {fault : Fault}

/-! ## Faults and the entries around them -/

/-- A fault of an entry is a matter of that entry and the ones before it. -/
theorem FaultAt.congr {entries' : List Json} (h : FaultAt entries i fault)
    (heq : ∀ j ≤ i, entries'[j]? = entries[j]?) : FaultAt entries' i fault := by
  cases h with
  | malformed hi h => exact .malformed ((heq i (Nat.le_refl i)).trans hi) h
  | duplicate hi h hji hj h' hid =>
    exact .duplicate ((heq i (Nat.le_refl i)).trans hi) h hji
      ((heq _ (Nat.le_of_lt hji)).trans hj) h' hid

theorem faultAt_take_iff {n : Nat} :
    FaultAt (entries.take n) i fault ↔ i < n ∧ FaultAt entries i fault := by
  constructor
  · intro h
    have hi : i < n := by
      obtain ⟨entry, hentry⟩ : ∃ entry, (entries.take n)[i]? = some entry := by
        cases h with
        | malformed hi _ => exact ⟨_, hi⟩
        | duplicate hi _ _ _ _ _ => exact ⟨_, hi⟩
      rw [List.getElem?_take] at hentry
      split at hentry
      · assumption
      · cases hentry
    exact ⟨hi, h.congr fun j hj ↦ (List.getElem?_take_of_lt (Nat.lt_of_le_of_lt hj hi)).symm⟩
  · rintro ⟨hi, h⟩
    exact h.congr fun j hj ↦ List.getElem?_take_of_lt (Nat.lt_of_le_of_lt hj hi)

theorem FaultAt.append (h : FaultAt entries i fault) (hi : i < entries.length)
    (more : List Json) : FaultAt (entries ++ more) i fault :=
  h.congr fun _ hj ↦ List.getElem?_append_left (Nat.lt_of_le_of_lt hj hi)

theorem FaultAt.lt_length (h : FaultAt entries i fault) : i < entries.length := by
  cases h with
  | malformed hi _ => exact (List.getElem?_eq_some_iff.1 hi).1
  | duplicate hi _ _ _ _ _ => exact (List.getElem?_eq_some_iff.1 hi).1

/-! ## Entries without a fault -/

theorem exists_getElem?_of_forall₂ {α β : Type} {R : α → β → Prop} {as : List α} {bs : List β}
    {a : α} (h : List.Forall₂ R as bs) (hi : as[i]? = some a) : ∃ b, bs[i]? = some b ∧ R a b := by
  induction h generalizing i with
  | nil => cases hi
  | cons hd _ ih =>
    cases i with
    | zero => cases hi; exact ⟨_, rfl, hd⟩
    | succ i => exact ih hi

theorem Holds.exists_level (h : Holds entries levels) {entry : Json}
    (hi : entries[i]? = some entry) :
    ∃ level, levels[i]? = some level ∧ Level.ofJson entry = .ok level :=
  exists_getElem?_of_forall₂ h.decoded hi

theorem Holds.exists_entry (h : Holds entries levels) {level : Level}
    (hi : levels[i]? = some level) :
    ∃ entry, entries[i]? = some entry ∧ Level.ofJson entry = .ok level :=
  exists_getElem?_of_forall₂ h.decoded.flip hi

/-- A level with a new id may come last. -/
theorem Holds.concat (h : Holds entries levels) {entry : Json} {level : Level}
    (hentry : Level.ofJson entry = .ok level) (hnew : ∀ earlier ∈ levels, earlier.id ≠ level.id) :
    Holds (entries ++ [entry]) (levels ++ [level]) where
  decoded := List.rel_append h.decoded (.cons hentry .nil)
  distinct := by
    rw [List.map_append]
    refine h.distinct.append (List.nodup_singleton level.id) ?_
    rintro id hid hid'
    obtain ⟨earlier, hearlier, rfl⟩ := List.mem_map.1 hid
    exact hnew earlier hearlier (List.mem_singleton.1 hid')

/-- Entries that make a catalog have no fault. -/
theorem Holds.not_faultAt (h : Holds entries levels) : ¬ FaultAt entries i fault := by
  intro hfault
  cases hfault with
  | malformed hi herr =>
    obtain ⟨level, -, hlevel⟩ := h.exists_level hi
    rw [herr] at hlevel
    cases hlevel
  | @duplicate _ _ _ _ j hi hok hji hj hok' hid =>
    obtain ⟨level, hli, hlevel⟩ := h.exists_level hi
    obtain ⟨level', hlj, hlevel'⟩ := h.exists_level hj
    cases hok.symm.trans hlevel
    cases hok'.symm.trans hlevel'
    have hlt : j < (levels.map Level.id).length := by
      rw [List.length_map]
      exact (List.getElem?_eq_some_iff.1 hlj).1
    refine Nat.ne_of_lt hji ((List.getElem?_inj hlt h.distinct).1 ?_)
    rw [List.getElem?_map, List.getElem?_map, hli, hlj, Option.map_some, Option.map_some, hid]

/-- Either the entries make a catalog, or those before some faulty one do. -/
theorem exists_holds_or_faultAt (entries : List Json) :
    (∃ levels, Holds entries levels) ∨
      ∃ i fault levels, FaultAt entries i fault ∧ Holds (entries.take i) levels := by
  -- entries are added at the end, so that a fault that is there stays the one
  induction entries using List.reverseRecOn with
  | nil => exact .inl ⟨[], .nil, List.nodup_nil⟩
  | append_singleton entries entry ih =>
    obtain ⟨levels, h⟩ | ⟨i, fault, levels, hi, h⟩ := ih
    · have hlast : (entries ++ [entry])[entries.length]? = some entry := List.getElem?_concat_length
      have hbefore : Holds ((entries ++ [entry]).take entries.length) levels := by
        rwa [List.take_left]
      cases hentry : Level.ofJson entry with
      | error misfit => exact .inr ⟨_, _, levels, .malformed hlast hentry, hbefore⟩
      | ok level =>
        by_cases hnew : ∀ earlier ∈ levels, earlier.id ≠ level.id
        · exact .inl ⟨_, h.concat hentry hnew⟩
        · simp only [not_forall, Decidable.not_not] at hnew
          obtain ⟨earlier, hearlier, hid⟩ := hnew
          obtain ⟨j, hj⟩ := List.getElem?_of_mem hearlier
          obtain ⟨entry', hj', hentry'⟩ := h.exists_entry hj
          have hlt : j < entries.length := (List.getElem?_eq_some_iff.1 hj').1
          exact .inr ⟨_, _, levels,
            .duplicate hlast hentry hlt ((List.getElem?_append_left hlt).trans hj') hentry' hid,
            hbefore⟩
    · refine .inr ⟨i, fault, levels, hi.append hi.lt_length _, ?_⟩
      rwa [List.take_append_of_le_length (Nat.le_of_lt hi.lt_length)]

/-! ## Reading the entries -/

/-- Entries that go with what was read before are taken over. -/
theorem ofEntries_append {index : Nat} {rest : List Json}
    (h : List.Forall₂ (fun entry level ↦ Level.ofJson entry = .ok level) entries levels)
    (hids : ((before ++ levels).map Level.id).Nodup) :
    ofEntries before index (entries ++ rest) =
      ofEntries (before ++ levels) (index + entries.length) rest := by
  induction h generalizing before index with
  | nil => rw [List.nil_append, List.append_nil, List.length_nil, Nat.add_zero]
  | @cons entry level entries levels hentry _ ih =>
    have hnew : ¬ before.any (·.id = level.id) := by
      rw [List.map_append, List.map_cons] at hids
      rintro hany
      obtain ⟨earlier, hearlier, hid⟩ := List.any_eq_true.1 hany
      exact (List.nodup_append.1 hids).2.2 earlier.id (List.mem_map_of_mem hearlier) level.id
        List.mem_cons_self (of_decide_eq_true hid)
    rw [List.append_cons] at hids ⊢
    rw [List.cons_append, ofEntries]
    simp only [hentry]
    rw [if_neg hnew, ih hids, List.length_cons, Nat.add_assoc, Nat.add_comm 1]

theorem ofEntries_of_holds (h : Holds entries levels) : ofEntries [] 0 entries = .ok levels := by
  have happend := @ofEntries_append entries levels [] 0 [] h.decoded h.distinct
  rwa [List.append_nil, List.nil_append, ofEntries] at happend

/-- The reading of the entries from index `i` on, after the ones before it. -/
theorem ofEntries_of_holds_take {entry : Json} (h : Holds (entries.take i) levels)
    (hi : entries[i]? = some entry) :
    ofEntries [] 0 entries = ofEntries levels i (entry :: entries.drop (i + 1)) := by
  obtain ⟨hlt, hentry⟩ := List.getElem?_eq_some_iff.1 hi
  have hlength : (entries.take i).length = i := List.length_take_of_le (Nat.le_of_lt hlt)
  calc ofEntries [] 0 entries
      = ofEntries [] 0 (entries.take i ++ entry :: entries.drop (i + 1)) := by
        rw [← hentry, List.getElem_cons_drop, List.take_append_drop]
    _ = ofEntries levels i (entry :: entries.drop (i + 1)) := by
        rw [@ofEntries_append _ levels [] 0 _ h.decoded h.distinct, hlength, List.nil_append,
          Nat.zero_add]

/-- A fault with nothing wrong before it is that of the catalog. -/
theorem ofEntries_of_faultAt (hi : FaultAt entries i fault) (h : Holds (entries.take i) levels) :
    ofEntries [] 0 entries = .error fault := by
  cases hi with
  | malformed hi herr =>
    rw [ofEntries_of_holds_take h hi, ofEntries]
    simp only [herr]
  | @duplicate _ _ level _ j hi hok hji hj hok' hid =>
    obtain ⟨level', hlevel', hentry'⟩ :=
      h.exists_level ((List.getElem?_take_of_lt hji).trans hj)
    cases hok'.symm.trans hentry'
    have hany : levels.any (·.id = level.id) :=
      List.any_eq_true.2 ⟨_, List.mem_of_getElem? hlevel', decide_eq_true hid⟩
    rw [ofEntries_of_holds_take h hi, ofEntries]
    simp only [hok, hany, if_true]

theorem ofEntries_eq_ok_iff : ofEntries [] 0 entries = .ok levels ↔ Holds entries levels := by
  constructor
  · intro hok
    obtain ⟨levels', h⟩ | ⟨i, fault, levels', hi, h⟩ := exists_holds_or_faultAt entries
    · cases hok.symm.trans (ofEntries_of_holds h)
      exact h
    · cases hok.symm.trans (ofEntries_of_faultAt hi h)
  · exact ofEntries_of_holds

/-- Whether `i` is the index of the first entry with a fault, and `fault` is that fault. -/
def FirstFault (entries : List Json) (i : Nat) (fault : Fault) : Prop :=
  FaultAt entries i fault ∧ ∀ j < i, ∀ earlier, ¬ FaultAt entries j earlier

theorem ofEntries_of_firstFault (h : FirstFault entries i fault) :
    ofEntries [] 0 entries = .error fault := by
  obtain ⟨hi, hbefore⟩ := h
  obtain ⟨levels, h⟩ | ⟨j, fault', levels, hj, h⟩ := exists_holds_or_faultAt entries
  · exact absurd hi h.not_faultAt
  · obtain hlt | rfl | hgt := Nat.lt_trichotomy j i
    · exact absurd hj (hbefore j hlt fault')
    · exact ofEntries_of_faultAt hi h
    · exact absurd (faultAt_take_iff.2 ⟨hgt, hi⟩) h.not_faultAt

theorem ofEntries_eq_error_iff :
    ofEntries [] 0 entries = .error fault ↔ ∃ i, FirstFault entries i fault := by
  constructor
  · intro herr
    obtain ⟨levels, h⟩ | ⟨i, fault', levels, hi, h⟩ := exists_holds_or_faultAt entries
    · cases herr.symm.trans (ofEntries_of_holds h)
    · cases herr.symm.trans (ofEntries_of_faultAt hi h)
      exact ⟨i, hi, fun j hj earlier he ↦ h.not_faultAt (faultAt_take_iff.2 ⟨hj, he⟩)⟩
  · rintro ⟨i, h⟩
    exact ofEntries_of_firstFault h

/-- What comes after the first fault does not matter. -/
theorem FirstFault.congr {entries' : List Json} (h : FirstFault entries i fault)
    (heq : entries'.take (i + 1) = entries.take (i + 1)) : FirstFault entries' i fault := by
  have hj : ∀ {j}, j ≤ i → entries'[j]? = entries[j]? := fun {j} hj ↦ by
    have hlt : j < i + 1 := Nat.lt_succ_of_le hj
    rw [← List.getElem?_take_of_lt hlt, heq, List.getElem?_take_of_lt hlt]
  refine ⟨h.1.congr fun j ↦ hj, fun j hlt earlier he ↦ h.2 j hlt earlier ?_⟩
  exact he.congr fun k hk ↦ (hj (Nat.le_trans hk (Nat.le_of_lt hlt))).symm

/-! ## Looking up an id -/

/-- A level that was found has the id that was looked for. -/
theorem mem_and_id_eq_of_find? {c : Catalog} {id : Nat} {level : Level}
    (h : c.find? (·.id = id) = some level) : level ∈ c ∧ level.id = id := by
  have hid := List.find?_some h
  exact ⟨List.mem_of_find?_eq_some h, of_decide_eq_true hid⟩

/-- With ids of their own, levels are found by them. -/
theorem level_eq_ok_iff {c : Catalog} {id : Nat} {level : Level}
    (hc : (c.map Level.id).Nodup) : c.level id = .ok level ↔ level ∈ c ∧ level.id = id := by
  rw [Catalog.level]
  constructor
  · intro h
    split at h
    · next found hfound =>
      cases h
      exact mem_and_id_eq_of_find? hfound
    · cases h
  · rintro ⟨hmem, rfl⟩
    split
    · next found hfound =>
      obtain ⟨hmem', hid⟩ := mem_and_id_eq_of_find? hfound
      rw [List.inj_on_of_nodup_map hc hmem' hmem hid]
    · next hnone => exact absurd (decide_eq_true rfl) (List.find?_eq_none.1 hnone level hmem)

theorem level_eq_error_iff {c : Catalog} {id : Nat} :
    c.level id = .error fault ↔ fault = .unknownLevel id ∧ ∀ level ∈ c, level.id ≠ id := by
  rw [Catalog.level]
  constructor
  · intro h
    split at h
    · cases h
    · next hnone =>
      cases h
      exact ⟨rfl, fun level hmem hid ↦ List.find?_eq_none.1 hnone level hmem (decide_eq_true hid)⟩
  · rintro ⟨rfl, hall⟩
    split
    · next found hfound =>
      obtain ⟨hmem, hid⟩ := mem_and_id_eq_of_find? hfound
      exact absurd hid (hall found hmem)
    · rfl

/-! ## Whole texts -/

/-- The entries that a value has as a catalog. -/
def entries? (root : Json) : Option (List Json) :=
  match root.get? "levels" with
  | some (.array entries) => some entries
  | _ => none

theorem entries?_eq_some_iff {root : Json} :
    entries? root = some entries ↔ root.get? "levels" = some (.array entries) := by
  rw [entries?]
  constructor
  · intro h
    split at h
    · next hlevels =>
      cases h
      exact hlevels
    · cases h
  · intro h
    simp only [h]

theorem ofString_of_levels {text : String} {root : Json} (hroot : Json.ofString text = .ok root)
    (hlevels : root.get? "levels" = some (.array entries)) :
    ofString text = ofEntries [] 0 entries := by
  rw [ofString]
  simp only [hroot]
  rw [ofJson]
  simp only [hlevels]

theorem ofString_of_no_levels {text : String} {root : Json} (hroot : Json.ofString text = .ok root)
    (hlevels : ∀ entries, root.get? "levels" ≠ some (.array entries)) :
    ofString text = .error .noLevels := by
  rw [ofString]
  simp only [hroot]
  rw [ofJson]
  split
  · next entries h => exact absurd h (hlevels entries)
  · rfl

/-- An id leads to the level of the entry that has it. -/
theorem Holds.level_eq_ok_iff (h : Holds entries levels) {id : Nat} {level : Level} :
    Catalog.level levels id = .ok level ↔
      ∃ entry ∈ entries, Level.ofJson entry = .ok level ∧ level.id = id := by
  rw [Catalog.level_eq_ok_iff h.distinct]
  constructor
  · rintro ⟨hmem, hid⟩
    obtain ⟨i, hi⟩ := List.getElem?_of_mem hmem
    obtain ⟨entry, hentry, hlevel⟩ := h.exists_entry hi
    exact ⟨entry, List.mem_of_getElem? hentry, hlevel, hid⟩
  · rintro ⟨entry, hmem, hlevel, hid⟩
    obtain ⟨i, hi⟩ := List.getElem?_of_mem hmem
    obtain ⟨level', hlevel', hentry⟩ := h.exists_level hi
    cases hlevel.symm.trans hentry
    exact ⟨List.mem_of_getElem? hlevel', hid⟩

theorem Holds.level_eq_error_iff (h : Holds entries levels) {id : Nat} :
    Catalog.level levels id = .error fault ↔ fault = .unknownLevel id ∧
      ∀ entry ∈ entries, ∀ level, Level.ofJson entry = .ok level → level.id ≠ id := by
  rw [Catalog.level_eq_error_iff]
  refine and_congr_right fun _ ↦ ⟨?_, ?_⟩
  · rintro hall entry hmem level hlevel
    obtain ⟨i, hi⟩ := List.getElem?_of_mem hmem
    obtain ⟨level', hlevel', hentry⟩ := h.exists_level hi
    cases hlevel.symm.trans hentry
    exact hall level (List.mem_of_getElem? hlevel')
  · rintro hall level hmem
    obtain ⟨i, hi⟩ := List.getElem?_of_mem hmem
    obtain ⟨entry, hentry, hlevel⟩ := h.exists_entry hi
    exact hall entry (List.mem_of_getElem? hentry) level hlevel

/-- What a text that is a JSON value is as a catalog. With entries it is that of their levels if
each entry is one and no two have the same id, and a level is then found by its id. Otherwise it has
the fault of the first entry that is no level or has the id of an earlier one, also with other
entries after that one and other members beside them. Without entries it has a fault of its own. -/
theorem ofString_loads (text : String) (root : Json) (hroot : Json.ofString text = .ok root) :
    (∀ entries, root.get? "levels" = some (.array entries) →
      (∀ levels, ofString text = .ok levels ↔ Holds entries levels) ∧
      (∀ levels, ofString text = .ok levels → levels.length = entries.length ∧ ∀ id,
        (∀ level, Catalog.level levels id = .ok level ↔
          ∃ entry ∈ entries, Level.ofJson entry = .ok level ∧ level.id = id) ∧
        (∀ fault, Catalog.level levels id = .error fault ↔ fault = .unknownLevel id ∧
          ∀ entry ∈ entries, ∀ level, Level.ofJson entry = .ok level → level.id ≠ id)) ∧
      (∀ fault, ofString text = .error fault ↔ ∃ i, FirstFault entries i fault) ∧
      (∀ i fault, FirstFault entries i fault → ∀ text' root' entries',
        Json.ofString text' = .ok root' → root'.get? "levels" = some (.array entries') →
        entries'.take (i + 1) = entries.take (i + 1) → ofString text' = .error fault)) ∧
    ((∀ entries, root.get? "levels" ≠ some (.array entries)) → ofString text = .error .noLevels) ∧
    (Fault.message text .noLevels = "file has no `levels` array" ∧
      (∀ i misfit, Fault.message text (.malformed i misfit) = s!"level entry {i} is malformed") ∧
      (∀ id, Fault.message text (.duplicate id) = s!"duplicate level id {id}") ∧
      ∀ id, Fault.message text (.unknownLevel id) = s!"no level with id {id}") := by
  refine ⟨fun entries hlevels ↦ ?_, ofString_of_no_levels hroot,
    rfl, fun _ _ ↦ rfl, fun _ ↦ rfl, fun _ ↦ rfl⟩
  rw [ofString_of_levels hroot hlevels]
  refine ⟨fun levels ↦ ofEntries_eq_ok_iff, fun levels hok ↦ ?_, fun fault ↦ ofEntries_eq_error_iff,
    fun i fault hfirst text' root' entries' hroot' hlevels' heq ↦ ?_⟩
  · have h : Holds entries levels := ofEntries_eq_ok_iff.1 hok
    exact ⟨h.decoded.length_eq.symm,
      fun id ↦ ⟨fun level ↦ h.level_eq_ok_iff, fun fault ↦ h.level_eq_error_iff⟩⟩
  · rw [ofString_of_levels hroot' hlevels']
    exact ofEntries_of_firstFault (hfirst.congr heq)

/-- A text with two levels of one id and a third entry that is no level. -/
def sameIds : String :=
  "\x7b\"levels\": [[7, \"\", \"\", \"\", \"\", \"\", [], []], " ++
    "[7, \"\", \"\", \"\", \"\", \"\", [], []], 0]\x7d"

theorem ofString_loads_sameIds :
    ∃ root, Json.ofString sameIds = .ok root ∧ ofString sameIds = .error (.duplicate 7) := by
  have hread : ((Json.ofString sameIds).toOption.bind entries?).map
      (·.map fun entry ↦ (Level.ofJson entry).toOption.map Level.id) =
      some [some 7, some 7, none] := by
    decide +kernel
  obtain ⟨entries, hentries, hids⟩ := Option.map_eq_some_iff.1 hread
  obtain ⟨root, hroot, hlevels⟩ := Option.bind_eq_some_iff.1 hentries
  obtain ⟨first, rest, rfl, hfirst, hrest⟩ := List.map_eq_cons_iff.1 hids
  obtain ⟨second, rest, rfl, hsecond, -⟩ := List.map_eq_cons_iff.1 hrest
  obtain ⟨level, hfirst, hid⟩ := Option.map_eq_some_iff.1 hfirst
  obtain ⟨level', hsecond, hid'⟩ := Option.map_eq_some_iff.1 hsecond
  have hroot := eq_ok_of_toOption hroot
  have hfault : FaultAt (first :: second :: rest) 1 (.duplicate level'.id) :=
    .duplicate rfl (eq_ok_of_toOption hsecond) Nat.zero_lt_one rfl (eq_ok_of_toOption hfirst)
      (hid.trans hid'.symm)
  rw [hid'] at hfault
  refine ⟨root, hroot, ?_⟩
  refine (((ofString_loads _ _ hroot).1 _ (entries?_eq_some_iff.1 hlevels)).2.2.1 _).2
    ⟨1, hfault, ?_⟩
  intro j hj earlier he
  obtain rfl := Nat.lt_one_iff.1 hj
  cases he with
  | malformed hi herr =>
    cases hi
    cases herr.symm.trans (eq_ok_of_toOption hfirst)
  | duplicate _ _ hlt _ _ _ => cases hlt

end TurtleGraphics.Catalog
