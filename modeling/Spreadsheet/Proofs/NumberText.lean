import Spreadsheet.Formula.Printer
import Spreadsheet.Formula.Token
import Spreadsheet.Proofs.CellId
import Spreadsheet.Proofs.Decimal

/-!
# The text of a number

A number in a formula is written as a numeral that names the number again. Whatever comes after the
numeral in the text, the numeral is found whole, as long as it stops there: at the end of the text,
or at a blank or a sign.

A numeral in parts is `WellSpelled` if digits stand where it has them, and then there is one way to
find it (`scan_append`). The three layouts of a decimal fraction are three ways to fill in the
parts.
-/

namespace Spreadsheet

open Text Numeral

/-! ## Where numerals and references stop -/

namespace Text

/-- A character that could make a number, a reference or a name longer. -/
def isWord (c : Char) : Bool := isDigit c || Token.isNamePart c || c == '.' || c == '$'

theorem isWord_of_isDigit {c : Char} (h : isDigit c = true) : isWord c = true := by
  simp [isWord, h]

theorem isWord_of_isNamePart {c : Char} (h : Token.isNamePart c = true) : isWord c = true := by
  simp [isWord, h]

theorem isWord_of_isLetter {c : Char} (h : isLetter c = true) : isWord c = true :=
  isWord_of_isNamePart (by simp [Token.isNamePart, Token.isNameStart, h])

/-- The text is at its end, or goes on with a character that makes no word longer. -/
def Ends (cs : List Char) : Prop := ∀ c ∈ cs.head?, isWord c = false

theorem ends_nil : Ends [] := nofun

theorem ends_cons {c : Char} (cs : List Char) (hc : isWord c = false) : Ends (c :: cs) := by
  intro d hd
  cases hd
  exact hc

theorem Ends.not {cs : List Char} (h : Ends cs) {p : Char → Bool}
    (hp : ∀ c, p c = true → isWord c = true) : ∀ c ∈ cs.head?, p c = false := by
  intro c hc
  rw [Bool.eq_false_iff]
  intro hpc
  have hword := hp c hpc
  rw [h c hc] at hword
  cases hword

end Text

/-! ## Numerals in parts -/

namespace DecimalText

/-- The mark of an exponent with its digits, or nothing. -/
inductive ExponentSpelled : List Char → List Char → Prop
  | absent : ExponentSpelled [] []
  | present {e : Char} {sign ds : List Char} (mark : e = 'e' ∨ e = 'E')
      (sign_mem : sign ∈ [[], ['+'], ['-']]) (ne_nil : ds ≠ [])
      (isDigit : ∀ c ∈ ds, isDigit c = true) :
      ExponentSpelled (e :: sign) ds

/-- Digits stand where a numeral has them. -/
structure WellSpelled (t : DecimalText) : Prop where
  whole : ∀ c ∈ t.whole, isDigit c = true
  fraction : ∀ c ∈ t.fraction, isDigit c = true
  fraction_eq_nil : t.point = false → t.fraction = []
  hasDigits : t.hasDigits = true
  exponent : ExponentSpelled t.mark t.exponent

theorem scanExponent_append {mark ds rest : List Char} (h : ExponentSpelled mark ds)
    (hrest : Ends rest) : scanExponent (mark ++ (ds ++ rest)) = (mark, ds) := by
  cases h with
  | absent =>
    cases rest with
    | nil => rfl
    | cons c rest =>
      have hc : ¬ (c = 'e' ∨ c = 'E') := by
        rintro (rfl | rfl) <;> exact absurd (hrest _ rfl) (by decide)
      exact if_neg hc
  | @present e sign ds mark sign_mem ne_nil hdigit =>
    obtain ⟨d, ds, rfl⟩ := List.exists_cons_of_ne_nil ne_nil
    have htake := (run_append hdigit (hrest.not fun _ ↦ isWord_of_isDigit)).1
    have hd : ¬ (d = '+' ∨ d = '-') := by
      rintro (rfl | rfl)
      · exact absurd (hdigit _ List.mem_cons_self) (by decide)
      · exact absurd (hdigit _ List.mem_cons_self) (by decide)
    simp only [List.mem_cons, List.not_mem_nil, or_false] at sign_mem
    rcases sign_mem with rfl | rfl | rfl
    · rw [List.cons_append] at htake
      simp only [scanExponent, List.cons_append, List.nil_append, if_pos mark, if_neg hd, htake]
    · simp only [scanExponent, List.cons_append, List.nil_append, if_pos mark, true_or, if_true]
      rw [← List.cons_append, htake]
    · simp only [scanExponent, List.cons_append, List.nil_append, if_pos mark, or_true, if_true]
      rw [← List.cons_append, htake]

theorem head?_exponent {mark ds rest : List Char} (h : ExponentSpelled mark ds)
    (hrest : Ends rest) :
    ∀ c ∈ (mark ++ (ds ++ rest)).head?, isDigit c = false ∧ c ≠ '.' := by
  intro c hc
  cases h with
  | absent =>
    refine ⟨hrest.not (fun _ ↦ isWord_of_isDigit) c hc, ?_⟩
    rintro rfl
    exact absurd (hrest _ hc) (by decide)
  | present mark =>
    cases hc
    rcases mark with rfl | rfl <;> decide

namespace WellSpelled

variable {t : DecimalText}

/-- **A well-spelled numeral is found whole** where it stops. -/
theorem scan_append (h : t.WellSpelled) {rest : List Char} (hrest : Ends rest) :
    scan (t.text ++ rest) = t := by
  obtain ⟨whole, point, fraction, mark, ds⟩ := t
  obtain ⟨hwhole, hfraction, hnil, -, hexponent⟩ := h
  dsimp only at hwhole hfraction hnil hexponent
  have htail := head?_exponent hexponent hrest
  have hscan := scanExponent_append hexponent hrest
  cases point with
  | true =>
    have hpoint : ∀ c ∈ ('.' :: (fraction ++ (mark ++ (ds ++ rest)))).head?, isDigit c = false := by
      intro c hc
      cases hc
      decide
    have hrun := run_append hwhole hpoint
    have hrun' := run_append hfraction fun c hc ↦ (htail c hc).1
    simp only [scan, text, if_true, List.append_assoc, List.cons_append, List.nil_append]
    rw [hrun.1, hrun.2]
    simp only [hrun'.1, hrun'.2, hscan]
  | false =>
    obtain rfl : fraction = [] := hnil rfl
    have hrun := run_append hwhole fun c hc ↦ (htail c hc).1
    simp only [scan, text, List.append_assoc, Bool.false_eq_true, if_false, List.nil_append]
    rw [hrun.1, hrun.2]
    split
    · rename_i rest' heq
      exact absurd rfl (htail '.' (by rw [heq]; rfl)).2
    · rw [hscan]

theorem scan_text (h : t.WellSpelled) : scan t.text = t := by
  have := h.scan_append ends_nil
  rwa [List.append_nil] at this

end WellSpelled

theorem exponentSpelled_scanExponent (cs : List Char) :
    ExponentSpelled (scanExponent cs).1 (scanExponent cs).2 ∧
      (scanExponent cs).1 ++ (scanExponent cs).2 <+: cs := by
  fun_cases scanExponent cs with
  | case1 => exact ⟨.absent, List.prefix_rfl⟩
  | case2 => exact ⟨.absent, List.nil_prefix⟩
  | case3 e rest mark sign after hsign hne =>
    -- the sign is one of the two or none, and stands before the digits
    have hsplit : sign ∈ [[], ['+'], ['-']] ∧ rest = sign ++ after := by
      split at hsign
      · split at hsign
        · rename_i hs
          cases hsign
          rcases hs with rfl | rfl <;> simp
        · cases hsign
          simp
      · cases hsign
        simp
    obtain ⟨hmem, rfl⟩ := hsplit
    refine ⟨.present mark hmem hne fun c hc ↦ List.mem_takeWhile_imp hc, ?_⟩
    rw [List.cons_append, List.prefix_cons_inj, List.prefix_append_right_inj]
    exact List.takeWhile_prefix _
  | case4 => exact ⟨.absent, List.nil_prefix⟩

theorem wellSpelled_scan {cs : List Char} (h : (scan cs).hasDigits = true) :
    (scan cs).WellSpelled := by
  unfold scan at h ⊢
  dsimp only at h ⊢
  split at h
  · exact ⟨fun c hc ↦ List.mem_takeWhile_imp hc, fun c hc ↦ List.mem_takeWhile_imp hc, nofun, h,
      (exponentSpelled_scanExponent _).1⟩
  · exact ⟨fun c hc ↦ List.mem_takeWhile_imp hc, nofun, fun _ ↦ rfl, h,
      (exponentSpelled_scanExponent _).1⟩

theorem text_prefix_scan (cs : List Char) : (scan cs).text <+: cs := by
  have hcs : cs.takeWhile isDigit ++ cs.dropWhile isDigit = cs := List.takeWhile_append_dropWhile
  unfold scan text
  dsimp only
  split
  · rename_i rest hdrop
    obtain ⟨tail, htail⟩ := (exponentSpelled_scanExponent (rest.dropWhile isDigit)).2
    refine ⟨tail, ?_⟩
    calc _ = cs.takeWhile isDigit ++ '.' :: (rest.takeWhile isDigit ++
          ((scanExponent (rest.dropWhile isDigit)).1 ++ (scanExponent (rest.dropWhile isDigit)).2
            ++ tail)) := by simp
      _ = cs := by rw [htail, List.takeWhile_append_dropWhile, ← hdrop, hcs]
  · rename_i rest
    obtain ⟨tail, htail⟩ := (exponentSpelled_scanExponent (cs.dropWhile isDigit)).2
    refine ⟨tail, ?_⟩
    calc _ = cs.takeWhile isDigit ++ ((scanExponent (cs.dropWhile isDigit)).1 ++
          (scanExponent (cs.dropWhile isDigit)).2 ++ tail) := by simp
      _ = cs := by rw [htail, hcs]

end DecimalText

/-! ## Rows of digits -/

namespace Numeral

theorem ofDigits_nil : ofDigits [] = 0 := rfl

theorem ofDigits_append (cs ds : List Char) :
    ofDigits (cs ++ ds) = ofDigits cs * 10 ^ ds.length + ofDigits ds := by
  induction ds using List.reverseRecOn with
  | nil => simp [ofDigits_nil]
  | append_singleton ds d ih =>
    rw [← List.append_assoc, ofDigits_append_singleton, ofDigits_append_singleton, ih,
      List.length_append, List.length_singleton, Nat.pow_succ, Nat.mul_add, Nat.mul_comm 10 (_ * _),
      Nat.mul_assoc, Nat.add_assoc]

theorem ofDigits_replicate_zero (k : Nat) : ofDigits (List.replicate k '0') = 0 := by
  induction k with
  | zero => rfl
  | succ k ih => rw [List.replicate_succ', ofDigits_append_singleton, ih]; decide

theorem isDigit_zero : isDigit '0' = true := by decide

theorem isDigit_of_mem_replicate_zero {k : Nat} {c : Char} (h : c ∈ List.replicate k '0') :
    isDigit c = true := by
  rw [List.eq_of_mem_replicate h, isDigit_zero]

end Numeral

/-! ## The layouts of a decimal fraction -/

namespace Decimal

/-- The text is a numeral, and names the same float as the decimal fraction. -/
def SpelledBy (d : Decimal) (cs : List Char) : Prop :=
  ∃ t : DecimalText, t.WellSpelled ∧ t.text = cs ∧ t.value.rank = d.rank

section Layouts

variable {n : Nat} {ds : List Char}

/-- A point with zeros after it, and then the digits. -/
theorem spelledBy_small (hds : ∀ c ∈ ds, isDigit c = true) (hn : ofDigits ds = n) (zeros : Nat) :
    SpelledBy ⟨n, -(zeros + ds.length : Nat)⟩ ('0' :: '.' :: List.replicate zeros '0' ++ ds) := by
  refine ⟨⟨['0'], true, List.replicate zeros '0' ++ ds, [], []⟩,
    ⟨?_, ?_, nofun, rfl, .absent⟩, ?_, ?_⟩
  · exact List.forall_mem_singleton.mpr isDigit_zero
  · exact List.forall_mem_append.mpr ⟨fun c hc ↦ isDigit_of_mem_replicate_zero hc, hds⟩
  · simp [DecimalText.text]
  · have hdigits : ofDigits (['0'] ++ (List.replicate zeros '0' ++ ds)) = n := by
      rw [ofDigits_append, ofDigits_append, ofDigits_replicate_zero, hn]
      simp [show ofDigits ['0'] = 0 by decide]
    simp only [DecimalText.value, hdigits, ofDigits_nil]
    congr 2
    simp

/-- Whole digits with zeros after them. -/
theorem spelledBy_whole (hds : ∀ c ∈ ds, isDigit c = true) (hn : ofDigits ds = n) (zeros : Nat) :
    SpelledBy ⟨n, zeros⟩ (ds ++ List.replicate zeros '0' ++ ['.', '0']) := by
  refine ⟨⟨ds ++ List.replicate zeros '0', true, ['0'], [], []⟩,
    ⟨?_, ?_, nofun, ?_, .absent⟩, ?_, ?_⟩
  · exact List.forall_mem_append.mpr ⟨hds, fun c hc ↦ isDigit_of_mem_replicate_zero hc⟩
  · exact List.forall_mem_singleton.mpr isDigit_zero
  · simp [DecimalText.hasDigits]
  · simp [DecimalText.text]
  · have hzero : ofDigits ['0'] = 0 := by decide
    have hdigits : ofDigits (ds ++ List.replicate zeros '0' ++ ['0']) = n * 10 ^ (zeros + 1) := by
      rw [ofDigits_append, ofDigits_append, ofDigits_replicate_zero, hn, hzero,
        List.length_replicate, Nat.add_zero, Nat.add_zero, Nat.mul_assoc, List.length_singleton,
        ← Nat.pow_add]
    simp only [DecimalText.value, hdigits, rank_scale, ofDigits_nil]
    congr 2
    have hmark : ([] : List Char).contains '-' = false := rfl
    rw [hmark, List.length_singleton]
    omega

/-- Digits on both sides of the point. -/
theorem spelledBy_mixed {whole fraction : List Char} (hwhole : ∀ c ∈ whole, isDigit c = true)
    (hfraction : ∀ c ∈ fraction, isDigit c = true) (hne : fraction ≠ [])
    (hn : ofDigits (whole ++ fraction) = n) :
    SpelledBy ⟨n, -(fraction.length : Nat)⟩ (whole ++ '.' :: fraction) := by
  refine ⟨⟨whole, true, fraction, [], []⟩, ⟨hwhole, hfraction, nofun, ?_, .absent⟩, ?_, ?_⟩
  · simp [DecimalText.hasDigits, hne]
  · simp [DecimalText.text]
  · simp [DecimalText.value, hn, ofDigits_nil]

/-- One digit before the point, or before the exponent if it is the only one. -/
theorem spelledBy_scientific {c : Char} (hds : ∀ d ∈ c :: ds, isDigit d = true)
    (hn : ofDigits (c :: ds) = n) {power : List Char} (hpower : ∀ d ∈ power, isDigit d = true)
    (hne : power ≠ []) (negative : Bool) :
    SpelledBy ⟨n, (if negative then -(ofDigits power : Int) else ofDigits power) - ds.length⟩
      ([c] ++ (if ds.isEmpty then [] else '.' :: ds) ++ 'e' ::
        (if negative then '-' else '+') :: power)
      := by
  obtain ⟨hc, hrest⟩ := List.forall_mem_cons.mp hds
  refine ⟨⟨[c], !ds.isEmpty, ds, ['e', if negative then '-' else '+'], power⟩,
    ⟨?_, hrest, ?_, rfl, ?_⟩, ?_, ?_⟩
  · exact List.forall_mem_singleton.mpr hc
  · simp
  · exact .present (.inl rfl) (by cases negative <;> simp) hne hpower
  · cases ds <;> simp [DecimalText.text]
  · cases negative <;> simp [DecimalText.value, hn]

end Layouts

/-- The digits of an exponent: at least two of them. -/
def exponentDigits (n : Nat) : List Char :=
  if (Numeral.digits n).length < 2 then '0' :: Numeral.digits n else Numeral.digits n

theorem ofDigits_exponentDigits (n : Nat) : ofDigits (exponentDigits n) = n := by
  unfold exponentDigits
  split
  · rw [← List.singleton_append, ofDigits_append, ofDigits_digits]
    simp [show ofDigits ['0'] = 0 by decide]
  · exact ofDigits_digits n

theorem isDigit_of_mem_exponentDigits {n : Nat} {c : Char} (h : c ∈ exponentDigits n) :
    isDigit c = true := by
  unfold exponentDigits at h
  split at h
  · rcases List.mem_cons.mp h with rfl | h
    · exact isDigit_zero
    · exact isDigit_of_mem_digits h
  · exact isDigit_of_mem_digits h

theorem exponentDigits_ne_nil (n : Nat) : exponentDigits n ≠ [] := by
  unfold exponentDigits
  split
  · exact List.cons_ne_nil _ _
  · exact digits_ne_nil n

/-- **The text of a decimal fraction names the same float.** -/
theorem spelledBy_layout (d : Decimal) : d.SpelledBy d.layout := by
  obtain ⟨n, e⟩ := d
  have hds : ∀ c ∈ Numeral.digits n, isDigit c = true := fun c ↦ isDigit_of_mem_digits
  have hn : ofDigits (Numeral.digits n) = n := ofDigits_digits n
  simp only [layout]
  generalize hlen : (Numeral.digits n).length = len
  split
  · -- the point falls before the digits
    have he : e = -((-((len : Int) + e)).toNat + len : Nat) := by omega
    have := spelledBy_small hds hn (-((len : Int) + e)).toNat
    rwa [hlen, ← he] at this
  · split
    · by_cases hafter : len ≤ ((len : Int) + e).toNat
      · -- the point falls behind the digits
        have he : e = (((len : Int) + e).toNat - len : Nat) := by omega
        have := spelledBy_whole hds hn (((len : Int) + e).toNat - len)
        rw [← he] at this
        rw [List.drop_eq_nil_of_le (hlen ▸ hafter), List.take_of_length_le (hlen ▸ hafter)]
        exact this
      · -- the point falls between the digits
        obtain ⟨p, hp⟩ : ∃ p, ((len : Int) + e).toNat = p := ⟨_, rfl⟩
        have hfraction : ((Numeral.digits n).drop p).length = len - p := by
          rw [List.length_drop, hlen]
        have he : e = -(((Numeral.digits n).drop p).length : Nat) := by omega
        have hne : (Numeral.digits n).drop p ≠ [] := List.ne_nil_of_length_pos (by omega)
        have := spelledBy_mixed (n := n) (fun c hc ↦ hds c (List.mem_of_mem_take hc))
          (fun c hc ↦ hds c (List.mem_of_mem_drop hc)) hne (by rw [List.take_append_drop, hn])
        rw [← he] at this
        rw [hp, if_neg (by simpa using hne), Nat.sub_eq_zero_of_le (by omega)]
        simpa using this
    · -- the point falls far from the digits
      obtain ⟨c, rest, hcons⟩ := List.exists_cons_of_ne_nil (digits_ne_nil n)
      rw [hcons, List.length_cons] at hlen
      rw [hcons] at hds hn
      have := spelledBy_scientific hds hn (fun _ ↦ isDigit_of_mem_exponentDigits)
        (exponentDigits_ne_nil ((len : Int) + e - 1).natAbs) (decide ((len : Int) + e - 1 < 0))
      have he : e = (if decide ((len : Int) + e - 1 < 0) = true
          then -(((len : Int) + e - 1).natAbs : Int) else ((len : Int) + e - 1).natAbs)
            - rest.length := by
        by_cases hneg : (len : Int) + e - 1 < 0
        · simp only [hneg, decide_true, if_true]
          omega
        · simp only [hneg, decide_false, Bool.false_eq_true, if_false]
          omega
      rw [ofDigits_exponentDigits, ← he] at this
      rw [hcons]
      simpa [exponentDigits] using this

theorem spelledBy_digits (n : Nat) : SpelledBy ⟨n, 0⟩ (Numeral.digits n) := by
  refine ⟨⟨Numeral.digits n, false, [], [], []⟩, ⟨?_, nofun, fun _ ↦ rfl, ?_, .absent⟩, ?_, ?_⟩
  · exact fun _ ↦ isDigit_of_mem_digits
  · simp [DecimalText.hasDigits, digits_ne_nil]
  · simp [DecimalText.text]
  · simp [DecimalText.value, ofDigits_digits, ofDigits_nil]

end Decimal

/-! ## Numbers of formulas -/

namespace Binary64

variable {v : Float}

theorem unpackExponent_ne (h : rank v < infinity) :
    @Float.Model.UnpackedFloat.unpackExponent Float.Model.Format.binary64
      v.toModel.toBits.toBitVec ≠ -1#11 := by
  intro heq
  have hbits := congrArg BitVec.toNat heq
  have hrank : rank v = v.toModel.toBits.toNat % 2 ^ 63 := rfl
  rw [hrank, infinity] at h
  simp only [Float.Model.UnpackedFloat.unpackExponent, BitVec.toNat_cast,
    BitVec.extractLsb_toNat] at hbits
  simp [Nat.shiftRight_eq_div_pow] at hbits
  omega

theorem isFinite_unpack {format : Float.Model.Format} {b : BitVec format.numBits}
    (h : Float.Model.UnpackedFloat.unpackExponent b ≠ -BitVec.ofNat format.exponentBits 1) :
    (Float.Model.UnpackedFloat.unpack format b).isFinite = true ∧
      (Float.Model.UnpackedFloat.unpack format b).isNaN = false := by
  delta Float.Model.UnpackedFloat.unpack
  dsimp only
  rw [if_neg h]
  by_cases hexponent : Float.Model.UnpackedFloat.unpackExponent b =
      BitVec.ofNat format.exponentBits 0
  · rw [if_pos hexponent]
    by_cases hmantissa :
        Float.Model.UnpackedFloat.unpackMantissa b =
          BitVec.ofNat format.mantissaBitsWithoutImplicit 0
    · rw [dif_pos hmantissa]
      exact ⟨rfl, rfl⟩
    · rw [dif_neg hmantissa]
      exact ⟨rfl, rfl⟩
  · rw [if_neg hexponent]
    exact ⟨rfl, rfl⟩

theorem isFinite_of_rank_lt (h : rank v < infinity) : v.isFinite = true ∧ v.isNaN = false :=
  isFinite_unpack (unpackExponent_ne h)

theorem whole?_zero : whole? 0 = some 0 := by decide +kernel

end Binary64

namespace Formula

section Numbers

/-- The text is a numeral, and names the float of rank `r`. -/
def WritesRank (r : Nat) (text : String) : Prop :=
  ∃ t : DecimalText, t.WellSpelled ∧ t.value.rank = r ∧ text = String.ofList t.text

variable {v : Float} {r : Nat}

theorem writesRank_write (hrank : Binary64.rank v = r) (hnegative : Binary64.negative v = false)
    (hpos : 0 < r) (hlt : r < Binary64.infinity) : WritesRank r (Binary64.write v) := by
  obtain ⟨-, hnan⟩ := Binary64.isFinite_of_rank_lt (hrank.trans_lt hlt)
  obtain ⟨t, hwell, htext, hvalue⟩ := (Decimal.shortest r).spelledBy_layout
  refine ⟨t, hwell, hvalue.trans (Decimal.rank_shortest hpos hlt), ?_⟩
  -- the conditions are settled one by one, as they stand
  unfold Binary64.write
  rw [if_neg (Bool.eq_false_iff.mp hnan)]
  dsimp only
  rw [if_neg fun h ↦ Nat.ne_of_lt hlt (hrank.symm.trans h),
    if_neg fun h ↦ Nat.ne_of_gt hpos (hrank.symm.trans h), hrank, hnegative,
    if_neg Bool.false_ne_true, List.nil_append, htext]

theorem writesRank_whole {n : Nat} (hlt : r < Binary64.infinity) (hn : Binary64.whole? r = some n) :
    WritesRank r (Numeral.write n) := by
  obtain ⟨t, hwell, htext, hvalue⟩ := Decimal.spelledBy_digits n
  refine ⟨t, hwell, hvalue.trans (Decimal.rank_of_whole? hlt hn), ?_⟩
  have hnonneg : ¬ (n : Int) < 0 := by omega
  simp [Numeral.write, htext, hnonneg]

/-- **The text of a number names the number.** -/
theorem writesRank_numberText (hrank : Binary64.rank v = r)
    (hnegative : Binary64.negative v = false) (hlt : r < Binary64.infinity) :
    WritesRank r (numberText v) := by
  obtain ⟨hfinite, -⟩ := Binary64.isFinite_of_rank_lt (hrank.trans_lt hlt)
  simp only [numberText, hfinite, hrank, hnegative, if_true, Bool.false_eq_true, if_false]
  rcases Nat.eq_zero_or_pos r with rfl | hpos
  · rw [Binary64.whole?_zero]
    exact writesRank_whole hlt Binary64.whole?_zero
  · cases hwhole : Binary64.whole? r with
    | none => exact writesRank_write hrank hnegative hpos hlt
    | some n =>
      dsimp only
      split
      · exact writesRank_whole hlt hwhole
      · exact writesRank_write hrank hnegative hpos hlt

end Numbers

end Formula

end Spreadsheet
