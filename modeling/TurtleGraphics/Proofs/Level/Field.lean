import Mathlib.Data.List.Induction
import TurtleGraphics.Level.Entry
import TurtleGraphics.Proofs.Json.Order
import TurtleGraphics.Proofs.Outcome

/-!
# Fields of records

The values that the fields of a level and of its goal ask for, and what it takes for members to give
a field: every value with its name fits, and the last of them counts. A record is read by setting
one field after another. If setting a field changes what is shown of that field only (`Shows`), then
what is shown after all members were read is what they give (`Shows.given_iff`).
-/

namespace TurtleGraphics

namespace Level

variable {α σ : Type} {v : Json} {members members' : List (String × Json)}

/-! ## Values of fields -/

/-- An id is a whole number in 32 bits. -/
inductive IsId : Json → Nat → Prop
  | whole {n : Nat} (h : n < 2 ^ 32) : IsId (.number (.whole n)) n

inductive IsText : Json → String → Prop
  | string (s : String) : IsText (.string s) s

inductive IsTexts : Json → List String → Prop
  | array {items : List Json} {texts : List String} (h : List.Forall₂ IsText items texts) :
    IsTexts (.array items) texts

/-- Any number is a float. -/
inductive IsNumber : Json → Float → Prop
  | number (n : Json.Number) : IsNumber (.number n) n.toFloat

inductive IsNumberOrNull : Json → Option Float → Prop
  | number (n : Json.Number) : IsNumberOrNull (.number n) (some n.toFloat)
  | null : IsNumberOrNull .null none

theorem idOf_eq_ok_iff {n : Nat} : idOf v = .ok n ↔ IsId v n := by
  constructor
  · intro h
    unfold idOf at h
    split at h
    · split at h
      · rename_i m hm
        cases h
        obtain ⟨k, rfl⟩ := Int.eq_ofNat_of_zero_le hm.1
        exact .whole (Int.ofNat_lt.1 hm.2)
      · cases h
    · cases h
  · rintro ⟨h⟩
    rw [idOf, if_pos ⟨Int.natCast_nonneg _, Int.ofNat_lt.2 h⟩, Int.toNat_natCast]

theorem IsId.unique {m n : Nat} (hm : IsId v m) (hn : IsId v n) : m = n :=
  eq_of_eq_ok_iff (fun _ ↦ idOf_eq_ok_iff) hm hn

theorem textOf_eq_ok_iff {s : String} : textOf v = .ok s ↔ IsText v s := by
  constructor
  · intro h
    unfold textOf at h
    split at h
    · cases h
      exact .string _
    · cases h
  · rintro ⟨⟩
    rfl

theorem IsText.unique {s t : String} (hs : IsText v s) (ht : IsText v t) : s = t :=
  eq_of_eq_ok_iff (fun _ ↦ textOf_eq_ok_iff) hs ht

theorem textsOf_eq_ok_iff {texts : List String} : textsOf v = .ok texts ↔ IsTexts v texts := by
  constructor
  · intro h
    unfold textsOf at h
    split at h
    · exact .array ((mapM_eq_ok.1 h).imp fun _ _ ↦ textOf_eq_ok_iff.1)
    · cases h
  · rintro ⟨h⟩
    exact mapM_eq_ok.2 (h.imp fun _ _ ↦ textOf_eq_ok_iff.2)

theorem IsTexts.unique {ss ts : List String} (hs : IsTexts v ss) (ht : IsTexts v ts) : ss = ts :=
  eq_of_eq_ok_iff (fun _ ↦ textsOf_eq_ok_iff) hs ht

theorem numberOf_eq_ok_iff {x : Float} : numberOf v = .ok x ↔ IsNumber v x := by
  constructor
  · intro h
    unfold numberOf at h
    split at h
    · cases h
      exact .number _
    · cases h
  · rintro ⟨⟩
    rfl

theorem IsNumber.unique {x y : Float} (hx : IsNumber v x) (hy : IsNumber v y) : x = y :=
  eq_of_eq_ok_iff (fun _ ↦ numberOf_eq_ok_iff) hx hy

theorem numberOf?_eq_ok_iff {x : Option Float} : numberOf? v = .ok x ↔ IsNumberOrNull v x := by
  constructor
  · intro h
    unfold numberOf? at h
    split at h
    · cases h
      exact .null
    · obtain ⟨y, hy, rfl⟩ := map_eq_ok.1 h
      obtain ⟨n⟩ := numberOf_eq_ok_iff.1 hy
      exact .number n
  · rintro ⟨⟩
    · rfl
    · rfl

theorem IsNumberOrNull.unique {x y : Option Float} (hx : IsNumberOrNull v x)
    (hy : IsNumberOrNull v y) : x = y :=
  eq_of_eq_ok_iff (fun _ ↦ numberOf?_eq_ok_iff) hx hy

/-! ## Fields of a record -/

/-- Whether the members give `a` for the field `name`. All values with that name have the form, and
the last of them is the one that counts; `absent` is what there is without one. -/
def Given (form : Json → α → Prop) (name : String) (members : List (String × Json))
    (absent : Option α) (a : α) : Prop :=
  (∀ v, (name, v) ∈ members → ∃ b, form v b) ∧
    match members.reverse.lookup name with
    | some v => form v a
    | none => absent = some a

theorem Given.congr {form : Json → α → Prop} {name : String} {absent : Option α} {a : α}
    (h : Json.SameMembers members members') (hgiven : Given form name members absent a) :
    Given form name members' absent a := by
  refine ⟨fun v hv ↦ hgiven.1 v (h.mem_iff.2 hv), ?_⟩
  rw [← h.lookup_reverse]
  exact hgiven.2

/-- What can be done with every value of the form can be done with a member of that name. -/
theorem Given.exists_of_mem {form : Json → α → Prop} {name : String} {absent : Option α} {a : α}
    {p : σ → Prop} (h : Given form name members absent a) (hv : (name, v) ∈ members)
    (hp : ∀ {b}, form v b → ∃ s, p s) : ∃ s, p s := by
  obtain ⟨b, hb⟩ := h.1 v hv
  exact hp hb

/-- Items that stand for the first few names. -/
theorem map_fst_zip_items (names : List String) (items : List Json) :
    (names.zip items).map Prod.fst = names.take items.length := by
  induction names generalizing items with
  | nil => rw [List.zip_nil_left, List.take_nil, List.map_nil]
  | cons name names ih =>
    cases items with
    | nil => rfl
    | cons v items =>
      rw [List.zip_cons_cons, List.map_cons, ih, List.length_cons, List.take_succ_cons]

/-- Members may be given by items in place of their names. -/
theorem sameMembers_of_perm_zip {names : List String} {items : List Json} (hnames : names.Nodup)
    (h : members.Perm (names.zip items)) : Json.SameMembers (names.zip items) members := by
  refine .of_perm h.symm ?_
  rw [map_fst_zip_items]
  exact hnames.sublist (List.take_sublist _ _)

/-- Whether `get` shows the field `name`, whose values are of the form, and nothing else. -/
structure Shows (set : σ → String → Json → Except Misfit σ) (name : String)
    (form : Json → α → Prop) (get : σ → Option α) : Prop where
  unique {v : Json} {a b : α} (ha : form v a) (hb : form v b) : a = b
  step {s s' : σ} {name' : String} {v : Json} (h : set s name' v = .ok s') :
    (name' = name ∧ ∃ a, form v a ∧ get s' = some a) ∨ (name' ≠ name ∧ get s' = get s)

namespace Shows

variable {set : σ → String → Json → Except Misfit σ} {name : String} {form : Json → α → Prop}
  {get : σ → Option α} {s s' : σ}

theorem exists_form (h : Shows set name form get)
    (hrun : members.foldlM (fun s m ↦ set s m.1 m.2) s = .ok s') (hv : (name, v) ∈ members) :
    ∃ a, form v a := by
  obtain ⟨t, t', ht⟩ := exists_step_of_foldlM hrun hv
  obtain ⟨-, a, ha, -⟩ | ⟨hne, -⟩ := h.step ht
  · exact ⟨a, ha⟩
  · exact absurd rfl hne

theorem get_eq (h : Shows set name form get)
    (hrun : members.foldlM (fun s m ↦ set s m.1 m.2) s = .ok s') :
    match members.reverse.lookup name with
    | some v => ∃ a, form v a ∧ get s' = some a
    | none => get s' = get s := by
  -- members are added at the end, since the last one counts
  induction members using List.reverseRecOn generalizing s' with
  | nil =>
    cases return_eq_ok.1 hrun
    rfl
  | append_singleton members m ih =>
    obtain ⟨t, ht, hm⟩ := foldlM_concat_eq_ok.1 hrun
    rw [List.reverse_concat, Json.lookup_cons_eq]
    obtain ⟨hname, hset⟩ | ⟨hne, hkeep⟩ := h.step hm
    · rw [if_pos hname.symm]
      exact hset
    · rw [if_neg (Ne.symm hne), hkeep]
      exact ih ht

theorem given_iff (h : Shows set name form get)
    (hrun : members.foldlM (fun s m ↦ set s m.1 m.2) s = .ok s') {a : α} :
    get s' = some a ↔ Given form name members (get s) a := by
  have hget := h.get_eq hrun
  rw [Given, and_iff_right fun v ↦ h.exists_form hrun]
  split
  · rename_i v hv
    rw [hv] at hget
    obtain ⟨b, hb, hget⟩ := hget
    rw [hget, Option.some_inj]
    exact ⟨fun heq ↦ heq ▸ hb, h.unique hb⟩
  · rename_i hnone
    rw [hnone] at hget
    rw [hget]

end Shows

end Level

end TurtleGraphics
