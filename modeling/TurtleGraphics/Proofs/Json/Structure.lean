import TurtleGraphics.Json

/-!
# The structure of values

Arrays and objects have values in them, to any depth. What is made of a value is made of what was
made of those in it (`fold`). Values can be compared.
-/

namespace TurtleGraphics.Json

section Fold

variable {α : Type} (scalar : Json → α) (array : List α → α) (object : List (String × α) → α)

mutual

/-- What is made of a value from the inside out. -/
def fold : Json → α
  | .array vs => array (foldItems vs)
  | .object ms => object (foldMembers ms)
  | v => scalar v

/-- What is made of the values of an array. -/
def foldItems : List Json → List α
  | [] => []
  | v :: vs => fold v :: foldItems vs

/-- What is made of the members of an object. -/
def foldMembers : List (String × Json) → List (String × α)
  | [] => []
  | (key, v) :: ms => (key, fold v) :: foldMembers ms

end

theorem fold_array (vs : List Json) :
    fold scalar array object (.array vs) = array (vs.map (fold scalar array object)) := by
  have hitems : foldItems scalar array object vs = vs.map (fold scalar array object) := by
    induction vs with
    | nil => rfl
    | cons v vs ih => rw [foldItems, ih, List.map_cons]
  rw [fold, hitems]

theorem fold_object (ms : List (String × Json)) :
    fold scalar array object (.object ms) =
      object (ms.map (Prod.map id (fold scalar array object))) := by
  have hmembers : foldMembers scalar array object ms =
      ms.map (Prod.map id (fold scalar array object)) := by
    induction ms with
    | nil => rfl
    | cons m ms ih => rw [foldMembers, ih, List.map_cons]; rfl
  rw [fold, hmembers]

end Fold

/-! ## Comparing values -/

deriving instance DecidableEq for Number

mutual

-- No instance is derived for a type that has lists of itself in it.
def decEq (v w : Json) : Decidable (v = w) :=
  if h : v.ctorIdx = w.ctorIdx then
    match v, w, h with
    | .null, .null, _ => isTrue rfl
    | .bool a, .bool b, _ => decidable_of_iff (a = b) (by simp)
    | .number m, .number n, _ => decidable_of_iff (m = n) (by simp)
    | .string s, .string t, _ => decidable_of_iff (s = t) (by simp)
    | .array vs, .array ws, _ =>
      have := decEqItems vs ws
      decidable_of_iff (vs = ws) (by simp)
    | .object ms, .object ms', _ =>
      have := decEqMembers ms ms'
      decidable_of_iff (ms = ms') (by simp)
  else isFalse fun heq ↦ h (congrArg _ heq)

def decEqItems (vs ws : List Json) : Decidable (vs = ws) :=
  match vs, ws with
  | [], [] => isTrue rfl
  | v :: vs, w :: ws =>
    have := decEq v w
    have := decEqItems vs ws
    decidable_of_iff (v = w ∧ vs = ws) (by simp)
  | [], _ :: _ => isFalse nofun
  | _ :: _, [] => isFalse nofun

def decEqMembers (ms ms' : List (String × Json)) : Decidable (ms = ms') :=
  match ms, ms' with
  | [], [] => isTrue rfl
  | (key, v) :: ms, (key', w) :: ms' =>
    have := decEq v w
    have := decEqMembers ms ms'
    decidable_of_iff ((key = key' ∧ v = w) ∧ ms = ms') (by simp)
  | [], _ :: _ => isFalse nofun
  | _ :: _, [] => isFalse nofun

end

instance : DecidableEq Json := decEq

end TurtleGraphics.Json
