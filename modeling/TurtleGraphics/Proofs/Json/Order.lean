import Mathlib.Data.List.Nodup
import Mathlib.Data.List.Perm.Basic
import Mathlib.Data.String.Basic
import TurtleGraphics.Proofs.Json.Reading
import TurtleGraphics.Proofs.Json.Structure

/-!
# The order of members

An object is kept with its members in the order of their keys, whatever their order in a text was.
So a text is read in two steps: to a value with the members as they stand (`inOrder`), and then by
putting those of every object in order (`sorted`). Values that differ only in the order of members
come out the same (`Reordered.sorted_eq`).
-/

namespace TurtleGraphics.Json

variable {key : String} {value v w : Json} {ms ms' : List (String × Json)}

/-! ## Members with other keys -/

/-- Whether every key has the same values in both lists, in the same order. -/
def SameMembers (ms ms' : List (String × Json)) : Prop :=
  ∀ key, ms.filter (·.1 = key) = ms'.filter (·.1 = key)

theorem lookup_cons_eq (key k : String) (value : Json) (ms : List (String × Json)) :
    ((k, value) :: ms).lookup key = if key = k then some value else ms.lookup key := by
  rw [List.lookup_cons]
  by_cases hk : key = k
  · rw [if_pos hk, hk, beq_self_eq_true]
  · rw [if_neg hk, beq_false_of_ne hk]

theorem lookup_filter_key (key : String) (ms : List (String × Json)) :
    (ms.filter (·.1 = key)).lookup key = ms.lookup key := by
  induction ms with
  | nil => rfl
  | cons m ms ih =>
    obtain ⟨k, v⟩ := m
    rw [List.filter_cons, lookup_cons_eq]
    by_cases hk : k = key
    · rw [if_pos (decide_eq_true hk), if_pos hk.symm, lookup_cons_eq, if_pos hk.symm]
    · rw [if_neg (by simpa using hk), if_neg (Ne.symm hk), ih]

namespace SameMembers

theorem symm (h : SameMembers ms ms') : SameMembers ms' ms := fun key ↦ (h key).symm

theorem mem_iff (h : SameMembers ms ms') {m : String × Json} : m ∈ ms ↔ m ∈ ms' := by
  have hmem (l : List (String × Json)) : m ∈ l ↔ m ∈ l.filter (·.1 = m.1) := by
    rw [List.mem_filter, and_iff_left (decide_eq_true rfl)]
  rw [hmem ms, hmem ms', h m.1]

/-- The last value with a key is the same. -/
theorem lookup_reverse (h : SameMembers ms ms') (key : String) :
    ms.reverse.lookup key = ms'.reverse.lookup key := by
  rw [← lookup_filter_key, List.filter_reverse, h key, ← List.filter_reverse, lookup_filter_key]

theorem map (h : SameMembers ms ms') (f : Json → Json) :
    SameMembers (ms.map (Prod.map id f)) (ms'.map (Prod.map id f)) := fun key ↦ by
  rw [List.filter_map, List.filter_map]
  exact congrArg (List.map (Prod.map id f)) (h key)

/-- With keys of their own, members may stand in any order. -/
theorem of_perm (h : ms.Perm ms') (hkeys : (ms.map Prod.fst).Nodup) : SameMembers ms ms' := by
  intro key
  have hlength : (ms.filter (·.1 = key)).length ≤ 1 := by
    have hcount := List.nodup_iff_count_le_one.1 hkeys key
    rwa [List.count, List.countP_map, List.countP_eq_length_filter] at hcount
  have hperm : (ms.filter (·.1 = key)).Perm (ms'.filter (·.1 = key)) := h.filter _
  cases hfound : ms.filter (·.1 = key) with
  | nil =>
    rw [hfound] at hperm
    exact hperm.nil_eq
  | cons m rest =>
    rw [hfound, List.length_cons] at hlength
    obtain rfl := List.length_eq_zero_iff.1 (Nat.le_zero.1 (Nat.le_of_succ_le_succ hlength))
    rw [hfound] at hperm
    exact (List.perm_singleton.1 hperm.symm).symm

end SameMembers

/-! ## Members in the order of their keys -/

/-- Whether the keys ascend, so that no two are equal. -/
def Ascending (ms : List (String × Json)) : Prop := (ms.map Prod.fst).Pairwise (· < ·)

theorem lookup_insertMember (k : String) :
    (insertMember key value ms).lookup k = if k = key then some value else ms.lookup k := by
  induction ms with
  | nil => exact lookup_cons_eq k key value []
  | cons m ms ih =>
    obtain ⟨k', v⟩ := m
    rw [insertMember]
    split
    · rename_i heq
      rw [lookup_cons_eq, lookup_cons_eq, heq]
      split
      · rfl
      · rfl
    · rename_i hne
      split
      · rw [lookup_cons_eq]
      · rw [lookup_cons_eq, ih, lookup_cons_eq]
        split
        · rename_i hk
          rw [if_neg (fun h ↦ hne (h.symm.trans hk))]
        · rfl

theorem mem_insertMember {m : String × Json} (h : m ∈ insertMember key value ms) :
    m = (key, value) ∨ m ∈ ms := by
  induction ms with
  | nil => exact .inl (List.mem_singleton.1 h)
  | cons m' ms ih =>
    obtain ⟨k', v⟩ := m'
    rw [insertMember] at h
    split at h
    · exact (List.mem_cons.1 h).imp_right (List.mem_cons_of_mem _)
    · split at h
      · exact List.mem_cons.1 h
      · obtain rfl | h := List.mem_cons.1 h
        · exact .inr List.mem_cons_self
        · exact (ih h).imp_right (List.mem_cons_of_mem _)

theorem Ascending.insertMember (h : Ascending ms) : Ascending (insertMember key value ms) := by
  induction ms with
  | nil => exact List.pairwise_singleton _ _
  | cons m ms ih =>
    obtain ⟨k', v⟩ := m
    obtain ⟨hall, htail⟩ := List.pairwise_cons.1 h
    rw [Json.insertMember]
    split
    · rename_i heq
      subst heq
      exact h
    · rename_i hne
      split
      · rename_i hlt
        refine List.pairwise_cons.2 ⟨fun k hk ↦ ?_, h⟩
        obtain rfl | hk := List.mem_cons.1 hk
        · exact hlt
        · exact hlt.trans (hall k hk)
      · rename_i hnot
        have hgt : k' < key := lt_of_le_of_ne (not_lt.1 hnot) (Ne.symm hne)
        refine List.pairwise_cons.2 ⟨fun k hk ↦ ?_, ih htail⟩
        obtain ⟨m, hm, rfl⟩ := List.mem_map.1 hk
        obtain rfl | hm := mem_insertMember hm
        · exact hgt
        · exact hall _ (List.mem_map_of_mem hm)

theorem Ascending.lookup_eq_some_iff (h : Ascending ms) :
    ms.lookup key = some value ↔ (key, value) ∈ ms := by
  constructor
  · intro hfound
    obtain ⟨before, after, rfl, -⟩ := List.lookup_eq_some_iff.1 hfound
    exact List.mem_append_right before List.mem_cons_self
  · intro hmem
    obtain ⟨before, after, rfl⟩ := List.append_of_mem hmem
    rw [Ascending, List.map_append, List.pairwise_append] at h
    refine List.lookup_eq_some_iff.2 ⟨before, after, rfl, fun m hm ↦ ?_⟩
    have hlt := h.2.2 m.1 (List.mem_map_of_mem hm) key List.mem_cons_self
    exact bne_iff_ne.2 (ne_of_gt hlt)

/-- Members in the order of their keys are known by what the keys lead to. -/
theorem Ascending.eq_of_lookup (h : Ascending ms) (h' : Ascending ms')
    (heq : ∀ key, ms.lookup key = ms'.lookup key) : ms = ms' := by
  have hmem (m : String × Json) : m ∈ ms ↔ m ∈ ms' := by
    rw [← h.lookup_eq_some_iff, heq, h'.lookup_eq_some_iff]
  have hnodup {l : List (String × Json)} (hl : Ascending l) : l.Nodup :=
    .of_map Prod.fst (hl.imp ne_of_lt)
  refine List.Perm.eq_of_pairwise (fun m m' _ _ hlt hgt ↦ absurd hgt (lt_asymm hlt))
    (List.pairwise_map.1 h) (List.pairwise_map.1 h') ?_
  exact (List.perm_ext_iff_of_nodup (hnodup h) (hnodup h')).2 hmem

/-- The members of the object that is made of the given ones. -/
theorem exists_ofMembers (ms : List (String × Json)) :
    ∃ made, ofMembers ms = .object made ∧ Ascending made ∧
      ∀ key, made.lookup key = ms.reverse.lookup key := by
  suffices h : ∀ before, Ascending before →
      Ascending (ms.foldl (fun ms m ↦ insertMember m.1 m.2 ms) before) ∧
      ∀ key, (ms.foldl (fun ms m ↦ insertMember m.1 m.2 ms) before).lookup key =
        (ms.reverse.lookup key).or (before.lookup key) by
    obtain ⟨hascending, hlookup⟩ := h [] .nil
    exact ⟨_, rfl, hascending, fun key ↦ (hlookup key).trans (Option.or_none)⟩
  induction ms with
  | nil => exact fun before h ↦ ⟨h, fun key ↦ rfl⟩
  | cons m ms ih =>
    intro before h
    have hnext : Ascending (Json.insertMember m.1 m.2 before) := h.insertMember
    obtain ⟨hascending, hlookup⟩ := ih _ hnext
    refine ⟨hascending, fun key ↦ (hlookup key).trans ?_⟩
    rw [lookup_insertMember, List.reverse_cons, List.lookup_append, lookup_cons_eq, Option.or_assoc]
    split
    · rfl
    · rfl

/-- Members in another order make the same object. -/
theorem SameMembers.ofMembers_eq (h : SameMembers ms ms') : ofMembers ms = ofMembers ms' := by
  obtain ⟨made, hmade, hascending, hlookup⟩ := exists_ofMembers ms
  obtain ⟨made', hmade', hascending', hlookup'⟩ := exists_ofMembers ms'
  rw [hmade, hmade', hascending.eq_of_lookup hascending' fun key ↦ ?_]
  rw [hlookup, hlookup', h.lookup_reverse]

/-! ## Values with their members in order -/

/-- The value with the members of each object in the order of their keys. -/
def sorted : Json → Json := fold id .array ofMembers

theorem sorted_array (vs : List Json) : sorted (.array vs) = .array (vs.map sorted) :=
  fold_array _ _ _ vs

theorem sorted_object (ms : List (String × Json)) :
    sorted (.object ms) = ofMembers (ms.map (Prod.map id sorted)) := fold_object _ _ _ ms

/-- How values are made of the members as they stand. -/
def inOrderMaker : Maker Json := ⟨readScalar, .array, .object⟩

/-- The value that a text is, with the members of each object as they stand there. -/
def inOrder (text : String) : Except Fault Json := ofCharsWith inOrderMaker text.toList

theorem plain_readConstant_sorted {ws cs : List Char} {c : Char} (h : sorted v = v) :
    (readConstant v ws c cs).plain = (readConstant v ws c cs).plain.map (Prod.map sorted id) := by
  rw [readConstant, Reading.plain_ofExcept]
  cases readWord ws cs with
  | error fault => rfl
  | ok rest => exact congrArg (fun v ↦ Except.ok (v, rest)) h.symm

theorem plain_readScalar_sorted (c : Char) (cs : List Char) :
    (readScalar c cs).plain = (readScalar c cs).plain.map (Prod.map sorted id) := by
  have hmade {α : Type} {ds : List Char} (h : ds.length ≤ (c :: cs).length) (make : α → Json)
      (hmake : ∀ a, sorted (make a) = make a) (r : Reading α ds) :
      (r.weaken h make).plain = (r.weaken h make).plain.map (Prod.map sorted id) := by
    rw [Reading.plain_weaken]
    cases r.plain with
    | error fault => rfl
    | ok r => exact congrArg (fun v ↦ Except.ok (v, r.2)) (hmake r.1).symm
  rw [readScalar]
  split
  · exact plain_readConstant_sorted rfl
  · split
    · exact plain_readConstant_sorted rfl
    · split
      · exact plain_readConstant_sorted rfl
      · split
        · exact hmade _ Json.string (fun _ ↦ rfl) _
        · split
          · exact hmade _ Json.number (fun _ ↦ rfl) _
          · split
            · exact hmade _ Json.number (fun _ ↦ rfl) _
            · rfl

theorem inOrderMaker_maps : inOrderMaker.Maps sorted maker where
  scalar := plain_readScalar_sorted
  array vs := (sorted_array vs).symm
  object ms := (sorted_object ms).symm

theorem ofString_eq_sorted (text : String) : ofString text = (inOrder text).map sorted := by
  rw [ofString, ofChars_eq_ofCharsWith, inOrderMaker_maps.ofCharsWith, inOrder]

/-! ## Values in another order -/

/-- Whether two values differ only in the order of the members of objects. -/
inductive Reordered : Json → Json → Prop
  | members {ms ms' : List (String × Json)} (h : SameMembers ms ms') :
    Reordered (.object ms) (.object ms')
  | item {v w : Json} (before after : List Json) (h : Reordered v w) :
    Reordered (.array (before ++ v :: after)) (.array (before ++ w :: after))
  | member {v w : Json} (before after : List (String × Json)) (key : String) (h : Reordered v w) :
    Reordered (.object (before ++ (key, v) :: after)) (.object (before ++ (key, w) :: after))
  | refl (v : Json) : Reordered v v
  | trans {v w u : Json} (h : Reordered v w) (h' : Reordered w u) : Reordered v u

theorem Reordered.sorted_eq (h : Reordered v w) : sorted v = sorted w := by
  induction h with
  | members h =>
    rw [sorted_object, sorted_object]
    exact (h.map sorted).ofMembers_eq
  | item before after _ ih =>
    rw [sorted_array, sorted_array, List.map_append, List.map_append, List.map_cons,
      List.map_cons, ih]
  | member before after key _ ih =>
    rw [sorted_object, sorted_object, List.map_append, List.map_append, List.map_cons,
      List.map_cons, Prod.map_apply, Prod.map_apply, ih]
  | refl v => rfl
  | trans _ _ ih ih' => exact ih.trans ih'

/-- Texts of values that differ only in the order of members are the same value. -/
theorem Reordered.ofString_eq {text text' : String} (hv : inOrder text = .ok v)
    (hw : inOrder text' = .ok w) (h : Reordered v w) : ofString text = ofString text' := by
  rw [ofString_eq_sorted, ofString_eq_sorted, hv, hw, Except.map, Except.map, h.sorted_eq]

end TurtleGraphics.Json
