import TurtleGraphics.Json.Reading

/-!
# JSON readers without bounds

A reading carries a proof that what it leaves is shorter. `Reading.plain` forgets it, and every
reader has an equation for what it plainly does (`plain_readItems` and so on). A reader of whole
values is then made from a reader of scalars and from what becomes of lists and of objects
(`readWith`), and turning one kind of value into another can be put off until a text is read
(`Maker.Maps.ofCharsWith`).
-/

namespace TurtleGraphics.Json

namespace Reading

variable {α β : Type} {cs : List Char}

/-- What was read and what is left. -/
def plain : Reading α cs → Except Fault (α × List Char)
  | .error fault => .error fault
  | .ok (a, ⟨rest, _⟩) => .ok (a, rest)

@[simp] theorem plain_ok (a : α) (rest : { rest : List Char // rest.length < cs.length }) :
    plain (.ok (a, rest) : Reading α cs) = .ok (a, rest.1) := rfl

@[simp] theorem plain_weaken {ds : List Char} (h : cs.length ≤ ds.length) (f : α → β)
    (r : Reading α cs) : (r.weaken h f).plain = r.plain.map (Prod.map f id) := by
  cases r with
  | error fault => rfl
  | ok r => rfl

@[simp] theorem plain_ofExcept (r : Except Fault (α × List Char))
    (h : ∀ a rest, r = .ok (a, rest) → rest.length < cs.length) : (ofExcept r h).plain = r := by
  cases r with
  | error fault => rfl
  | ok r => rfl

theorem length_lt_of_plain {r : Reading α cs} {a : α} {rest : List Char}
    (h : r.plain = .ok (a, rest)) : rest.length < cs.length := by
  cases r with
  | error fault => cases h
  | ok r =>
    cases h
    exact r.2.2

end Reading

/-! ## What the readers do -/

variable {α β : Type}

theorem plain_readItems (element : (cs : List Char) → Reading α cs) (cs : List Char) :
    (readItems element cs).plain =
      match (element cs).plain with
      | .error fault => .error fault
      | .ok (v, afterValue) =>
        match skipSpace afterValue with
        | [] => .error (.atNext .unfinishedList [])
        | c :: rest =>
          if c = ']' then .ok ([v], rest)
          else if c = ',' then
            match skipSpace rest with
            | [] => .error (.atNext .unfinishedValue [])
            | ']' :: more => .error (.atNext .trailingComma (']' :: more))
            | _ => (readItems element rest).plain.map (Prod.map (v :: ·) id)
          else .error (.atNext .expectedListEnd (c :: rest)) := by
  rw [readItems]
  cases element cs with
  | error fault => rfl
  | ok r =>
    obtain ⟨v, afterValue, hv⟩ := r
    dsimp only [Reading.plain_ok]
    split
    · rename_i hrest
      simp only [hrest]
      rfl
    · rename_i c rest hrest
      simp only [hrest]
      split
      · rfl
      · split
        · cases skipSpace rest with
          | nil => rfl
          | cons d more =>
            by_cases hd : d = ']'
            · subst hd
              rfl
            · simp [hd]
        · rfl

theorem plain_readList (element : (cs : List Char) → Reading α cs) (cs : List Char) :
    (readList element cs).plain =
      match skipSpace cs with
      | [] => .error (.atNext .unfinishedList [])
      | c :: rest => if c = ']' then .ok ([], rest) else (readItems element cs).plain := by
  rw [readList]
  split
  · rename_i hcs
    simp only [hcs]
    rfl
  · rename_i c rest hcs
    simp only [hcs]
    split
    · rfl
    · rfl

/-- What becomes of a member with this key and value, which `afterValue` follows. -/
def plainAfterMember (element : (cs : List Char) → Reading α cs) (key : String) (v : α)
    (afterValue : List Char) : Except Fault (List (String × α) × List Char) :=
  match skipSpace afterValue with
  | [] => .error (.atNext .unfinishedObject [])
  | c :: rest =>
    if c = '\x7d' then .ok ([(key, v)], rest)
    else if c = ',' then
      match skipSpace rest with
      | [] => .error (.atNext .unfinishedValue [])
      | d :: next =>
        if d = '"' then (readMembers element next).plain.map (Prod.map ((key, v) :: ·) id)
        else if d = '\x7d' then .error (.atNext .trailingComma (d :: next))
        else .error (.atNext .keyNotString (d :: next))
    else .error (.atNext .expectedObjectEnd (c :: rest))

theorem plain_readMembers (element : (cs : List Char) → Reading α cs) (cs : List Char) :
    (readMembers element cs).plain =
      match readString cs with
      | .error fault => .error fault
      | .ok (key, afterKey) =>
        match skipSpace afterKey with
        | [] => .error (.atNext .unfinishedObject [])
        | ':' :: value =>
          match (element value).plain with
          | .error fault => .error fault
          | .ok (v, afterValue) => plainAfterMember element key v afterValue
        | c :: rest => .error (.atNext .expectedColon (c :: rest)) := by
  rw [readMembers]
  split
  · rename_i hkey
    simp only [hkey]
    rfl
  · rename_i key afterKey hkey
    simp only [hkey]
    split
    · rename_i hcolon
      simp only [hcolon]
      rfl
    · rename_i value hcolon
      simp only [hcolon]
      cases element value with
      | error fault => rfl
      | ok r =>
        obtain ⟨v, afterValue, hv⟩ := r
        dsimp only [Reading.plain_ok]
        rw [plainAfterMember]
        split
        · rename_i hrest
          simp only [hrest]
          rfl
        · rename_i c rest hrest
          simp only [hrest]
          split
          · rfl
          · split
            · split
              · rename_i hnext
                simp only [hnext]
                rfl
              · rename_i d next hnext
                simp only [hnext]
                split
                · exact Reading.plain_weaken _ _ _
                · split
                  · rfl
                  · rfl
            · rfl
    · rename_i c rest hnot hcolon
      simp only [hcolon]
      rfl

theorem plain_readObject (element : (cs : List Char) → Reading α cs) (cs : List Char) :
    (readObject element cs).plain =
      match skipSpace cs with
      | [] => .error (.atNext .unfinishedObject [])
      | c :: rest =>
        if c = '\x7d' then .ok ([], rest)
        else if c = '"' then (readMembers element rest).plain
        else .error (.atNext .keyNotString (c :: rest)) := by
  rw [readObject]
  split
  · rename_i hcs
    simp only [hcs]
    rfl
  · rename_i c rest hcs
    simp only [hcs]
    split
    · rfl
    · split
      · rw [Reading.plain_weaken]
        cases (readMembers element rest).plain with
        | error fault => rfl
        | ok r => rfl
      · rfl

/-! ## Readers of whole values -/

/-- What becomes of the parts of a value. -/
structure Maker (α : Type) where
  /-- Reads a value that has no brackets. -/
  scalar : (c : Char) → (cs : List Char) → Reading α (c :: cs)
  array : List α → α
  object : List (String × α) → α

theorem length_rest_le_of_skipSpace {cs rest : List Char} {c : Char}
    (h : skipSpace cs = c :: rest) : rest.length ≤ cs.length :=
  Nat.le_of_lt (length_lt_of_skipSpace h)

/-- Reads a value in which `depth` brackets may be open at once. -/
def readWith (m : Maker α) (depth : Nat) (cs : List Char) : Reading α cs :=
  match h : skipSpace cs with
  | [] => .error (.atNext .unfinishedValue [])
  | c :: rest =>
    have hr := length_rest_le_of_skipSpace h
    if c = '[' then
      match depth with
      | 0 => .error (.atNext .tooDeep (c :: rest))
      | depth + 1 => (readList (readWith m depth) rest).weaken hr m.array
    else if c = '\x7b' then
      match depth with
      | 0 => .error (.atNext .tooDeep (c :: rest))
      | depth + 1 => (readObject (readWith m depth) rest).weaken hr m.object
    else (m.scalar c rest).weaken (length_le_of_skipSpace h) id

/-- Reads a text that holds one value and nothing else. -/
def ofCharsWith (m : Maker α) (cs : List Char) : Except Fault α :=
  match (readWith m greatestDepth cs).plain with
  | .error fault => .error fault
  | .ok (v, rest) =>
    match skipSpace rest with
    | [] => .ok v
    | c :: rest => .error (.atNext .trailingCharacters (c :: rest))

theorem plain_readWith (m : Maker α) (depth : Nat) (cs : List Char) :
    (readWith m depth cs).plain =
      match skipSpace cs with
      | [] => .error (.atNext .unfinishedValue [])
      | c :: rest =>
        if c = '[' then
          match depth with
          | 0 => .error (.atNext .tooDeep (c :: rest))
          | depth + 1 => (readList (readWith m depth) rest).plain.map (Prod.map m.array id)
        else if c = '\x7b' then
          match depth with
          | 0 => .error (.atNext .tooDeep (c :: rest))
          | depth + 1 => (readObject (readWith m depth) rest).plain.map (Prod.map m.object id)
        else (m.scalar c rest).plain := by
  rw [readWith.eq_def]
  split
  · rename_i hcs
    simp only [hcs]
    rfl
  · rename_i c rest hcs
    simp only [hcs]
    split
    · cases depth with
      | zero => rfl
      | succ depth => exact Reading.plain_weaken _ _ _
    · split
      · cases depth with
        | zero => rfl
        | succ depth => exact Reading.plain_weaken _ _ _
      · rw [Reading.plain_weaken]
        cases (m.scalar c rest).plain with
        | error fault => rfl
        | ok r => rfl

/-- How the values of the library are made. -/
def maker : Maker Json := ⟨readScalar, .array, ofMembers⟩

theorem readValue_eq_readWith (depth : Nat) : readValue depth = readWith maker depth := by
  induction depth with
  | zero =>
    funext cs
    rw [readValue.eq_def, readWith.eq_def]
    rfl
  | succ depth ih =>
    funext cs
    rw [readValue.eq_def, readWith.eq_def]
    simp only [ih]
    rfl

theorem ofChars_eq_ofCharsWith (cs : List Char) : ofChars cs = ofCharsWith maker cs := by
  rw [ofChars, ofCharsWith, readValue_eq_readWith]
  cases readWith maker greatestDepth cs with
  | error fault => rfl
  | ok r => rfl

/-! ## Other values of the same texts -/

section Map

variable {f : α → β} {element : (cs : List Char) → Reading α cs}
  {element' : (cs : List Char) → Reading β cs}

theorem plain_readItems_map
    (h : ∀ cs, (element' cs).plain = (element cs).plain.map (Prod.map f id)) (cs : List Char) :
    (readItems element' cs).plain =
      (readItems element cs).plain.map (Prod.map (List.map f) id) := by
  induction hn : cs.length using Nat.strongRecOn generalizing cs with
  | _ n ih =>
    rw [plain_readItems, plain_readItems, h]
    cases hv : (element cs).plain with
    | error fault => rfl
    | ok r =>
      obtain ⟨v, afterValue⟩ := r
      have hlt := Reading.length_lt_of_plain hv
      dsimp only [Except.map, Prod.map, id_eq]
      cases hrest : skipSpace afterValue with
      | nil => rfl
      | cons c rest =>
        have hrest := length_lt_of_skipSpace hrest
        dsimp only
        split
        · rfl
        · split
          · rw [ih rest.length (by omega) rest rfl]
            split
            · rfl
            · rfl
            · cases (readItems element rest).plain with
              | error fault => rfl
              | ok r => rfl
          · rfl

theorem plain_readList_map
    (h : ∀ cs, (element' cs).plain = (element cs).plain.map (Prod.map f id)) (cs : List Char) :
    (readList element' cs).plain =
      (readList element cs).plain.map (Prod.map (List.map f) id) := by
  rw [plain_readList, plain_readList]
  split
  · rfl
  · split
    · rfl
    · exact plain_readItems_map h cs

/-- What comes after a member is mapped if the members in a shorter text are. -/
theorem plainAfterMember_map {afterValue : List Char}
    (h : ∀ next, next.length < afterValue.length → (readMembers element' next).plain =
      (readMembers element next).plain.map (Prod.map (List.map (Prod.map id f)) id))
    (key : String) (v : α) :
    plainAfterMember element' key (f v) afterValue =
      (plainAfterMember element key v afterValue).map
        (Prod.map (List.map (Prod.map id f)) id) := by
  rw [plainAfterMember, plainAfterMember]
  cases hrest : skipSpace afterValue with
  | nil => rfl
  | cons c rest =>
    have hrest := length_lt_of_skipSpace hrest
    dsimp only
    split
    · rfl
    · split
      · cases hnext : skipSpace rest with
        | nil => rfl
        | cons d next =>
          have hnext := length_lt_of_skipSpace hnext
          dsimp only
          split
          · rw [h next (by omega)]
            cases (readMembers element next).plain with
            | error fault => rfl
            | ok r => rfl
          · split
            · rfl
            · rfl
      · rfl

theorem plain_readMembers_map
    (h : ∀ cs, (element' cs).plain = (element cs).plain.map (Prod.map f id)) (cs : List Char) :
    (readMembers element' cs).plain =
      (readMembers element cs).plain.map (Prod.map (List.map (Prod.map id f)) id) := by
  induction hn : cs.length using Nat.strongRecOn generalizing cs with
  | _ n ih =>
    rw [plain_readMembers, plain_readMembers]
    cases hkey : readString cs with
    | error fault => rfl
    | ok r =>
      obtain ⟨key, afterKey⟩ := r
      have hkey := length_lt_of_readString hkey
      dsimp only
      split
      · rfl
      · rename_i value hcolon
        have hcolon := length_lt_of_skipSpace hcolon
        rw [h]
        cases hv : (element value).plain with
        | error fault => rfl
        | ok r =>
          have hv := Reading.length_lt_of_plain hv
          have hnext (next : List Char) (hnext : next.length < r.2.length) :=
            ih next.length (by omega) next rfl
          exact plainAfterMember_map hnext key r.1
      · rfl

theorem plain_readObject_map
    (h : ∀ cs, (element' cs).plain = (element cs).plain.map (Prod.map f id)) (cs : List Char) :
    (readObject element' cs).plain =
      (readObject element cs).plain.map (Prod.map (List.map (Prod.map id f)) id) := by
  rw [plain_readObject, plain_readObject]
  split
  · rfl
  · split
    · rfl
    · split
      · exact plain_readMembers_map h _
      · rfl

end Map

/-- Whether `f` turns what one maker makes into what the other makes. -/
structure Maker.Maps (m : Maker α) (f : α → β) (m' : Maker β) : Prop where
  scalar (c : Char) (cs : List Char) :
    (m'.scalar c cs).plain = (m.scalar c cs).plain.map (Prod.map f id)
  array (vs : List α) : m'.array (vs.map f) = f (m.array vs)
  object (members : List (String × α)) :
    m'.object (members.map (Prod.map id f)) = f (m.object members)

namespace Maker.Maps

variable {m : Maker α} {m' : Maker β} {f : α → β}

theorem plain_readWith (h : m.Maps f m') (depth : Nat) (cs : List Char) :
    (readWith m' depth cs).plain = (readWith m depth cs).plain.map (Prod.map f id) := by
  induction depth generalizing cs with
  | zero =>
    rw [Json.plain_readWith, Json.plain_readWith]
    split
    · rfl
    · split
      · rfl
      · split
        · rfl
        · exact h.scalar _ _
  | succ depth ih =>
    rw [Json.plain_readWith, Json.plain_readWith]
    split
    · rfl
    · rename_i c rest hcs
      split
      · dsimp only
        rw [plain_readList_map ih]
        cases (readList (readWith m depth) rest).plain with
        | error fault => rfl
        | ok r => exact congrArg (fun v ↦ Except.ok (v, r.2)) (h.array r.1)
      · split
        · dsimp only
          rw [plain_readObject_map ih]
          cases (readObject (readWith m depth) rest).plain with
          | error fault => rfl
          | ok r => exact congrArg (fun v ↦ Except.ok (v, r.2)) (h.object r.1)
        · exact h.scalar _ _

/-- A text is read in one way with either maker. -/
theorem ofCharsWith (h : m.Maps f m') (cs : List Char) :
    Json.ofCharsWith m' cs = (Json.ofCharsWith m cs).map f := by
  rw [Json.ofCharsWith, Json.ofCharsWith, h.plain_readWith]
  cases (readWith m greatestDepth cs).plain with
  | error fault => rfl
  | ok r =>
    obtain ⟨v, rest⟩ := r
    dsimp only [Except.map, Prod.map, id_eq]
    split
    · rfl
    · rfl

end Maker.Maps

end TurtleGraphics.Json
