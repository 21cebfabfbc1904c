import Mathlib.Data.List.TakeDrop
import TurtleGraphics.Json.Printer
import TurtleGraphics.Json.Reading
import TurtleGraphics.Proofs.Decimal.Digits

/-!
# Number literals

What JSON has for a number, as characters: a sign, a whole part without needless zeros, a fraction
and an exponent. All but the whole part may be missing. A literal is read as it stands, so no digit
of it is lost. Every number that is written is a literal and is read back as it was written
(`Literal.read`, `literal_text`).
-/

namespace TurtleGraphics.Json

/-! ## Reading a literal -/

/-- At least one digit, and nothing but digits. -/
def isDigits (cs : List Char) : Bool := !cs.isEmpty && cs.all Char.isDigit

/-- Digits that do not begin with zero, or a zero. -/
def isWhole (cs : List Char) : Bool := cs = ['0'] || isDigits cs && cs.head? != some '0'

/-- Nothing, or digits after a point. -/
def isFraction : List Char → Bool
  | [] => true
  | c :: cs => c = '.' && isDigits cs

/-- Nothing, or digits after a mark and maybe a sign. -/
def isExponent : List Char → Bool
  | [] => true
  | c :: cs => isExponentMark c && isDigits (exponentSign cs).2

/-- Whether the characters are a number. -/
def isLiteral (cs : List Char) : Bool :=
  let unsigned := if cs.head? = some '-' then cs.tail else cs
  let (mantissa, exponent) := unsigned.span fun c ↦ !isExponentMark c
  let (whole, fraction) := mantissa.span (· != '.')
  isWhole whole && isFraction fraction && isExponent exponent

/-- Whether `c` may stand in a number. -/
def isNumeric (c : Char) : Bool := c.isDigit || ['-', '+', '.', 'e', 'E'].elem c

/-- The number that the characters begin with, as it stands. -/
def readLiteral (cs : List Char) : Except Fault (String × List Char) :=
  if isLiteral (cs.takeWhile isNumeric) then
    .ok (String.ofList (cs.takeWhile isNumeric), cs.dropWhile isNumeric)
  else .error (.atNext .invalidNumber cs)

theorem length_lt_of_readLiteral {cs rest : List Char} {s : String}
    (h : readLiteral cs = .ok (s, rest)) : rest.length < cs.length := by
  rw [readLiteral] at h
  split at h
  · rename_i hliteral
    cases h
    have hpos : 0 < (cs.takeWhile isNumeric).length := by
      refine List.length_pos_iff.2 fun hnil ↦ ?_
      rw [hnil] at hliteral
      exact absurd hliteral (by decide)
    calc (cs.dropWhile isNumeric).length
        < (cs.takeWhile isNumeric).length + (cs.dropWhile isNumeric).length :=
          Nat.lt_add_of_pos_left hpos
      _ = cs.length := by rw [← List.length_append, List.takeWhile_append_dropWhile]
  · cases h

/-! ## The parts of a literal -/

/-- A number without a sign, by its parts. -/
inductive Unsigned : List Char → Prop
  | parts {whole fraction exponent : List Char} (hwhole : isWhole whole)
    (hfraction : isFraction fraction) (hexponent : isExponent exponent) :
    Unsigned (whole ++ (fraction ++ exponent))

/-- A number with its sign. -/
inductive Literal : List Char → Prop
  | positive {cs : List Char} (h : Unsigned cs) : Literal cs
  | negative {cs : List Char} (h : Unsigned cs) : Literal ('-' :: cs)

variable {c : Char} {cs ds rest : List Char}

theorem isDigits_iff : isDigits cs ↔ cs ≠ [] ∧ ∀ c ∈ cs, c.isDigit := by
  rw [isDigits, Bool.and_eq_true, Bool.not_eq_true', List.isEmpty_eq_false_iff, List.all_eq_true]

theorem isWhole_iff : isWhole cs ↔ cs = ['0'] ∨ Decimal.IsProper cs := by
  rw [isWhole, Bool.or_eq_true, Bool.and_eq_true, isDigits_iff, decide_eq_true_eq]
  refine or_congr_right ⟨?_, ?_⟩
  · rintro ⟨⟨hne, hdigits⟩, hhead⟩
    obtain ⟨c, ds, rfl⟩ := List.exists_cons_of_ne_nil hne
    exact .digits (by simpa using hhead) hdigits
  · rintro ⟨hc, h⟩
    exact ⟨⟨List.cons_ne_nil _ _, h⟩, by simpa using hc⟩

theorem isFraction_iff : isFraction cs ↔ cs = [] ∨ ∃ ds, cs = '.' :: ds ∧ isDigits ds := by
  cases cs with
  | nil => exact iff_of_true rfl (.inl rfl)
  | cons c cs =>
    rw [isFraction, Bool.and_eq_true, decide_eq_true_eq]
    constructor
    · rintro ⟨rfl, h⟩
      exact .inr ⟨cs, rfl, h⟩
    · rintro (h | ⟨ds, h, hds⟩)
      · cases h
      · cases h
        exact ⟨rfl, hds⟩

/-- A whole part has a digit in front, and no other characters than digits. -/
theorem exists_of_isWhole (h : isWhole cs) :
    ∃ c ds, cs = c :: ds ∧ ∀ d ∈ c :: ds, d.isDigit := by
  obtain rfl | h := isWhole_iff.1 h
  · exact ⟨'0', [], rfl, List.forall_mem_singleton.2 rfl⟩
  · cases h with
    | digits _ hdigits => exact ⟨_, _, rfl, hdigits⟩

theorem ne_of_isDigit {d : Char} (h : c.isDigit) (hd : d.isDigit = false) : c ≠ d := by
  rintro rfl
  rw [hd] at h
  cases h

theorem isExponentMark_of_isDigit (h : c.isDigit) : isExponentMark c = false := by
  rw [isExponentMark, Bool.or_eq_false_iff]
  exact ⟨decide_eq_false (ne_of_isDigit h rfl), decide_eq_false (ne_of_isDigit h rfl)⟩

/-- What goes on up to a character that ends it is spanned. -/
theorem span_append {p : Char → Bool} (hcs : ∀ c ∈ cs, p c) (hrest : ∀ c ∈ rest.head?, ¬ p c) :
    (cs ++ rest).span p = (cs, rest) := by
  rw [List.span_eq_takeWhile_dropWhile, List.takeWhile_append_of_pos hcs,
    List.dropWhile_append_of_pos hcs]
  cases rest with
  | nil => rw [List.takeWhile_nil, List.dropWhile_nil, List.append_nil]
  | cons c rest =>
    have hc := hrest c rfl
    rw [List.takeWhile_cons_of_neg hc, List.dropWhile_cons_of_neg hc, List.append_nil]

theorem Unsigned.spans (h : Unsigned cs) :
    ∃ mantissa exponent whole fraction, (cs.span fun c ↦ !isExponentMark c) = (mantissa, exponent) ∧
      mantissa.span (· != '.') = (whole, fraction) ∧ isWhole whole ∧ isFraction fraction ∧
        isExponent exponent := by
  obtain @⟨whole, fraction, exponent, hwhole, hfraction, hexponent⟩ := h
  have hdigit : ∀ c ∈ whole, c.isDigit := by
    obtain ⟨c, ds, rfl, h⟩ := exists_of_isWhole hwhole
    exact h
  refine ⟨whole ++ fraction, exponent, whole, fraction, ?_, ?_, hwhole, hfraction, hexponent⟩
  · rw [← List.append_assoc]
    refine span_append (fun c hc ↦ ?_) (fun c hc ↦ ?_)
    · rw [Bool.not_eq_true']
      obtain hc | hc := List.mem_append.1 hc
      · exact isExponentMark_of_isDigit (hdigit c hc)
      · obtain rfl | ⟨ds, rfl, hds⟩ := isFraction_iff.1 hfraction
        · cases hc
        · obtain rfl | hc := List.mem_cons.1 hc
          · rfl
          · exact isExponentMark_of_isDigit ((isDigits_iff.1 hds).2 c hc)
    · cases exponent with
      | nil => cases hc
      | cons d exponent =>
        cases hc
        rw [isExponent, Bool.and_eq_true] at hexponent
        rw [hexponent.1]
        decide
  · refine span_append (fun c hc ↦ bne_iff_ne.2 (ne_of_isDigit (hdigit c hc) rfl))
      (fun c hc ↦ ?_)
    obtain rfl | ⟨ds, rfl, -⟩ := isFraction_iff.1 hfraction
    · cases hc
    · cases hc
      decide

theorem Unsigned.ne_nil (h : Unsigned cs) : cs ≠ [] := by
  obtain @⟨whole, fraction, exponent, hwhole, -, -⟩ := h
  obtain ⟨c, ds, rfl, -⟩ := exists_of_isWhole hwhole
  exact List.cons_ne_nil c _

theorem Literal.ne_nil (h : Literal cs) : cs ≠ [] := by
  cases h with
  | positive h => exact h.ne_nil
  | negative _ => exact List.cons_ne_nil _ _

theorem Literal.isLiteral (h : Literal cs) : isLiteral cs := by
  have hunsigned : ∃ unsigned, Unsigned unsigned ∧
      (if cs.head? = some '-' then cs.tail else cs) = unsigned := by
    cases h with
    | positive h =>
      refine ⟨cs, h, if_neg ?_⟩
      cases h with
      | parts hwhole _ _ =>
        obtain ⟨c, ds, rfl, hdigits⟩ := exists_of_isWhole hwhole
        intro hhead
        exact ne_of_isDigit (hdigits c List.mem_cons_self) rfl (Option.some.inj hhead)
    | negative h => exact ⟨_, h, if_pos rfl⟩
  obtain ⟨unsigned, h, hunsigned⟩ := hunsigned
  obtain ⟨mantissa, exponent, whole, fraction, hspan, hspan', hwhole, hfraction, hexponent⟩ :=
    h.spans
  rw [Json.isLiteral]
  simp only [hunsigned, hspan, hspan', hwhole, hfraction, hexponent, Bool.and_true]

theorem isNumeric_of_isDigit (h : c.isDigit) : isNumeric c := by rw [isNumeric, h, Bool.true_or]

theorem isNumeric_of_isExponentMark (h : isExponentMark c) : isNumeric c := by
  rw [isExponentMark, Bool.or_eq_true, decide_eq_true_eq, decide_eq_true_eq] at h
  obtain rfl | rfl := h
  · rfl
  · rfl

theorem mem_exponentSign (h : c ∈ cs) : c ∈ (exponentSign cs).2 ∨ c = '-' ∨ c = '+' := by
  unfold exponentSign
  split
  · obtain rfl | h := List.mem_cons.1 h
    · exact .inr (.inl rfl)
    · exact .inl h
  · obtain rfl | h := List.mem_cons.1 h
    · exact .inr (.inr rfl)
    · exact .inl h
  · exact .inl h

theorem Literal.isNumeric (h : Literal cs) : ∀ c ∈ cs, isNumeric c := by
  have hunsigned {cs : List Char} (h : Unsigned cs) : ∀ c ∈ cs, Json.isNumeric c := by
    cases h with
    | parts hwhole hfraction hexponent =>
      intro c hc
      rw [List.mem_append, List.mem_append] at hc
      obtain hc | hc | hc := hc
      · obtain ⟨d, ds, rfl, hdigits⟩ := exists_of_isWhole hwhole
        exact isNumeric_of_isDigit (hdigits c hc)
      · obtain rfl | ⟨ds, rfl, hds⟩ := isFraction_iff.1 hfraction
        · cases hc
        · obtain rfl | hc := List.mem_cons.1 hc
          · rfl
          · exact isNumeric_of_isDigit ((isDigits_iff.1 hds).2 c hc)
      · rename_i exponent
        cases exponent with
        | nil => cases hc
        | cons d ds =>
          rw [isExponent, Bool.and_eq_true] at hexponent
          obtain rfl | hc := List.mem_cons.1 hc
          · exact isNumeric_of_isExponentMark hexponent.1
          · obtain hc | rfl | rfl := mem_exponentSign hc
            · exact isNumeric_of_isDigit ((isDigits_iff.1 hexponent.2).2 c hc)
            · rfl
            · rfl
  cases h with
  | positive h => exact hunsigned h
  | negative h => exact List.forall_mem_cons.2 ⟨rfl, hunsigned h⟩

/-- A literal is read as it stands, up to a character that is in no number. -/
theorem Literal.read (h : Literal cs) (hrest : ∀ c ∈ rest.head?, ¬ Json.isNumeric c) :
    readLiteral (cs ++ rest) = .ok (String.ofList cs, rest) := by
  have hspan := span_append h.isNumeric hrest
  rw [List.span_eq_takeWhile_dropWhile, Prod.mk.injEq] at hspan
  rw [readLiteral, hspan.1, hspan.2, if_pos h.isLiteral]

/-! ## Numbers that are written -/

theorem Unsigned.signed (h : Unsigned cs) (negative : Bool) :
    Literal (Decimal.sign negative ++ cs) := by
  cases negative with
  | false => exact .positive h
  | true => exact .negative h

/-- A number that has no exponent. -/
theorem Unsigned.decimal {whole fraction : List Char} (hwhole : isWhole whole)
    (hfraction : isFraction fraction) : Unsigned (whole ++ fraction) := by
  have hparts : Unsigned (whole ++ (fraction ++ [])) := .parts hwhole hfraction rfl
  rwa [List.append_nil] at hparts

theorem unsigned_toDigits (n : Nat) : Unsigned (Nat.toDigits 10 n) := by
  have hwhole : isWhole (Nat.toDigits 10 n) := by
    obtain rfl | hn := Nat.eq_zero_or_pos n
    · rfl
    · exact isWhole_iff.2 (.inr (Decimal.isProper_toDigits hn))
  rw [← List.append_nil (Nat.toDigits 10 n)]
  exact .decimal hwhole rfl

theorem literal_toString (n : Int) : Literal (toString n).toList := by
  cases n with
  | ofNat n =>
    have htext : (toString (Int.ofNat n)).toList = Nat.toDigits 10 n := Nat.toList_repr
    rw [htext]
    exact .positive (unsigned_toDigits n)
  | negSucc n =>
    have htext : (toString (Int.negSucc n)).toList = '-' :: (n + 1).repr.toList :=
      String.toList_append
    rw [htext, Nat.toList_repr]
    exact .negative (unsigned_toDigits (n + 1))

section Digits

variable {d : Decimal.Digits}

theorem isDigits_toDigits (n : Nat) : isDigits (Nat.toDigits 10 n) :=
  isDigits_iff.2 ⟨Nat.toDigits_ne_nil,
    fun _ hc ↦ Nat.isDigit_of_mem_toDigits (by decide) (by decide) hc⟩

theorem isDigit_of_mem_replicate {n : Nat} (h : c ∈ List.replicate n '0') : c.isDigit := by
  rw [List.eq_of_mem_replicate h]
  rfl

theorem unsigned_positional (h : Decimal.IsProper d.digits) : Unsigned (d.positional true) := by
  obtain ⟨ds, point⟩ := d
  obtain @⟨c, cs, hc, hdigits⟩ := h
  rw [Decimal.Digits.positional]
  split
  · -- nothing but a zero before the point
    refine @Unsigned.decimal ['0'] _ rfl
      (isFraction_iff.2 (.inr ⟨_, rfl, isDigits_iff.2 ⟨?_, ?_⟩⟩))
    · exact List.append_ne_nil_of_right_ne_nil _ (List.cons_ne_nil c cs)
    · intro d hd
      obtain hd | hd := List.mem_append.1 hd
      · exact isDigit_of_mem_replicate hd
      · exact hdigits d hd
  · split
    · -- all digits before the point, and zeros after them
      refine .decimal (isWhole_iff.2 (.inr (.digits hc ?_))) rfl
      intro d (hd : d ∈ c :: cs ++ List.replicate _ '0')
      obtain hd | hd := List.mem_append.1 hd
      · exact hdigits d hd
      · exact isDigit_of_mem_replicate hd
    · -- the point between two digits
      rename_i hpoint hlength
      obtain ⟨k, hk⟩ : ∃ k, point.toNat = k + 1 := ⟨point.toNat - 1, by dsimp only at hpoint; omega⟩
      rw [hk, List.take_succ_cons, List.drop_succ_cons]
      refine .decimal (isWhole_iff.2 (.inr (.digits hc fun d hd ↦ hdigits d ?_)))
        (isFraction_iff.2 (.inr ⟨_, rfl, isDigits_iff.2 ⟨?_, fun d hd ↦ hdigits d ?_⟩⟩))
      · exact (List.take_sublist (k + 1) (c :: cs)).subset hd
      · refine List.ne_nil_of_length_pos ?_
        rw [List.length_drop]
        dsimp only [List.length_cons] at hlength
        omega
      · exact List.mem_cons_of_mem c (List.mem_of_mem_drop hd)

theorem unsigned_scientific (h : Decimal.IsProper d.digits) : Unsigned d.scientific := by
  obtain ⟨ds, point⟩ := d
  obtain @⟨c, cs, hc, hdigits⟩ := h
  have hexponent : isExponent ('e' :: (if point - 1 < 0 then '-' else '+') ::
      Nat.toDigits 10 (point - 1).natAbs) := by
    rw [isExponent, Bool.and_eq_true]
    refine ⟨rfl, ?_⟩
    split
    · exact isDigits_toDigits _
    · exact isDigits_toDigits _
  have hwhole : isWhole [c] := by
    refine isWhole_iff.2 (.inr (.digits hc fun d hd ↦ hdigits d ?_))
    rw [List.mem_singleton.1 hd]
    exact List.mem_cons_self
  cases cs with
  | nil => exact @Unsigned.parts [c] [] _ hwhole rfl hexponent
  | cons c' cs =>
    refine @Unsigned.parts [c] ('.' :: c' :: cs) _ hwhole ?_ hexponent
    exact isFraction_iff.2 (.inr ⟨_, rfl, isDigits_iff.2 ⟨List.cons_ne_nil c' cs,
      fun d hd ↦ hdigits d (List.mem_cons_of_mem c hd)⟩⟩)

end Digits

theorem literal_data {x : Float} (h : x.isFinite) :
    Literal (Decimal.Layout.data.text x).toList := by
  obtain ⟨negative, m, q, hx⟩ := Decimal.exists_finite_of_isFinite h
  rw [Decimal.Layout.text, hx, String.toList_ofList]
  cases m with
  | zero =>
    have hzero : Unsigned ['0', '.', '0'] := @Unsigned.decimal ['0'] ['.', '0'] rfl rfl
    exact hzero.signed negative
  | succ m =>
    have hproper := Decimal.isProper_shortest (Nat.succ_pos m) q
    refine Unsigned.signed ?_ negative
    rw [Decimal.Layout.digits]
    dsimp only [Decimal.Layout.data]
    split
    · exact unsigned_positional hproper
    · exact unsigned_scientific hproper

end TurtleGraphics.Json
