import Mathlib.Data.List.TakeWhile
import SymbolTables.Access.Prepared
import SymbolTables.Proofs.Query.Resolution
import SymbolTables.Proofs.Scan.Exchange

/-!
# Position tokens

A position is written `@` and its number, and read from `@` and any digits that stand for a number
below the bound. Zeros in front of a number are read over, so that reading a token and writing it
again gives the token back unless it is one of a position with such zeros (`FieldRef.Padded`).

* `toDigits_numberOf`: the digits of a number that was read are those that were read, without the
  zeros in front of them.
* `token_eq_self_iff`: the tokens that come back.
* `ofToken_token_position`: a position comes back from its token.
* `token_of_written`: both, and how a query shows a column that it references by position.
-/
namespace SymbolTables

namespace FieldRef

/-! ## Digits -/

/-- The digits without the zeros in front of them, one of which stays if there is nothing else. -/
def unpadded (digits : List Char) : List Char :=
  if digits.dropWhile (· == '0') = [] then ['0'] else digits.dropWhile (· == '0')

theorem numberOf_append (digits : List Char) (c : Char) :
    numberOf (digits ++ [c]) = 10 * numberOf digits + (c.toNat - '0'.toNat) := by
  simp [numberOf]

theorem isDigit_iff {c : Char} : isDigit c = true ↔ 48 ≤ c.toNat ∧ c.toNat ≤ 57 := by
  simp only [isDigit, Bool.and_eq_true, decide_eq_true_eq]
  exact Iff.rfl

theorem digitChar_of_isDigit {c : Char} (h : isDigit c = true) :
    Nat.digitChar (c.toNat - '0'.toNat) = c := by
  have hc := isDigit_iff.1 h
  have hzero : '0'.toNat = 48 := rfl
  apply Char.toNat_inj.mp
  rw [hzero, Nat.toNat_digitChar_of_lt_ten (by omega)]
  omega

/-- Only zeros stand for zero. -/
theorem numberOf_eq_zero_iff {digits : List Char} (h : ∀ c ∈ digits, isDigit c = true) :
    numberOf digits = 0 ↔ digits.dropWhile (· == '0') = [] := by
  rw [List.dropWhile_eq_nil_iff]
  induction digits using List.reverseRecOn with
  | nil => simp [numberOf]
  | append_singleton digits c ih =>
    have hc := isDigit_iff.1 (h c (by simp))
    have ih := ih fun d hd => h d (by simp [hd])
    have hzero : '0'.toNat = 48 := rfl
    have hchar : c = '0' ↔ c.toNat = 48 := Char.toNat_inj.symm
    simp only [List.mem_append, List.mem_singleton, beq_iff_eq] at ih ⊢
    rw [numberOf_append, hzero]
    constructor
    · intro hsum d hd
      rcases hd with hd | rfl
      · exact ih.1 (by omega) d hd
      · exact hchar.2 (by omega)
    · intro hall
      have hdigits := ih.2 fun d hd => hall d (.inl hd)
      have hlast := hchar.1 (hall c (.inr rfl))
      omega

/-- The digits of a number that was read from digits. -/
theorem toDigits_numberOf {digits : List Char} (h : ∀ c ∈ digits, isDigit c = true) :
    Nat.toDigits 10 (numberOf digits) = unpadded digits := by
  induction digits using List.reverseRecOn with
  | nil => rfl
  | append_singleton digits c ih =>
    have hfront : ∀ d ∈ digits, isDigit d = true := fun d hd => h d (by simp [hd])
    have ih := ih hfront
    have hdigit := h c (by simp)
    have hbound := isDigit_iff.1 hdigit
    have hzero : '0'.toNat = 48 := rfl
    have hlt : c.toNat - '0'.toNat < 10 := by omega
    have hlast : Nat.toDigits 10 (c.toNat - '0'.toNat) = [c] := by
      rw [Nat.toDigits_of_lt_base hlt, digitChar_of_isDigit hdigit]
    rw [numberOf_append]
    unfold unpadded at ih ⊢
    rw [List.dropWhile_append]
    by_cases hnone : digits.dropWhile (· == '0') = []
    · -- nothing but zeros in front: the last digit is all there is
      rw [(numberOf_eq_zero_iff hfront).2 hnone, Nat.mul_zero, Nat.zero_add, hlast, hnone]
      by_cases hc : c = '0'
      · simp [hc]
      · simp [hc]
    · have hpos : 0 < numberOf digits := by
        have := mt (numberOf_eq_zero_iff hfront).1 hnone
        omega
      rw [if_neg hnone] at ih
      rw [← Nat.toDigits_append_toDigits (by decide) hpos hlt, ih, hlast]
      simp [hnone]

/-- Digits that stand as they are have no zero in front of another digit. -/
theorem unpadded_eq_self_iff {digits : List Char} (hne : digits ≠ []) :
    unpadded digits = digits ↔ ∀ rest, digits = '0' :: rest → rest = [] := by
  cases digits with
  | nil => exact absurd rfl hne
  | cons first rest =>
    by_cases hfirst : first = '0'
    · subst hfirst
      have hle : (rest.dropWhile (· == '0')).length ≤ rest.length :=
        (List.dropWhile_suffix _).length_le
      constructor
      · intro h rest' heq
        cases heq
        have hlength := congrArg List.length h
        unfold unpadded at hlength
        simp only [List.dropWhile_cons, beq_self_eq_true, if_true, List.length_cons] at hlength
        split at hlength
        · exact List.eq_nil_of_length_eq_zero (by simpa using hlength.symm)
        · omega
      · intro h
        rw [h rest rfl]
        rfl
    · constructor
      · intro _ rest' heq
        cases heq
        exact absurd rfl hfirst
      · intro _
        simp [unpadded, hfirst]

/-! ## Tokens -/

/-- A token of a position with zeros in front of its number. -/
def Padded (token : String) : Prop :=
  ∃ digits, token.toList = '@' :: '0' :: digits ∧ digits ≠ [] ∧ (∀ c ∈ digits, isDigit c = true) ∧
    numberOf digits < positionBound

theorem toList_token_position (index : Nat) :
    (position index).token.toList = '@' :: Nat.toDigits 10 index := by
  show ("@" ++ index.repr).toList = _
  rw [String.toList_append, Nat.toList_repr]
  rfl

/-- Positions are read from `@` and digits. -/
theorem ofToken_eq_position_iff {token : String} {index : Nat} :
    ofToken token = .position index ↔
      ∃ digits, token.toList = '@' :: digits ∧ digits ≠ [] ∧ (∀ c ∈ digits, isDigit c = true) ∧
        numberOf digits < positionBound ∧ numberOf digits = index := by
  unfold ofToken positionOf?
  split
  · rename_i n h
    split at h
    · rename_i digits heq
      split at h
      · rename_i hd
        cases h
        simp only [Bool.and_eq_true, Bool.not_eq_true', List.isEmpty_eq_false_iff, ne_eq,
          List.all_eq_true, decide_eq_true_eq] at hd
        obtain ⟨⟨hne, hall⟩, hbound⟩ := hd
        constructor
        · intro hp
          cases hp
          exact ⟨digits, heq, hne, hall, hbound, rfl⟩
        · rintro ⟨digits', heq', -, -, -, rfl⟩
          cases heq.symm.trans heq'
          rfl
      · cases h
    · cases h
  · rename_i h
    constructor
    · intro hp
      cases hp
    · rintro ⟨digits, heq, hne, hall, hbound, -⟩
      have hd : (!digits.isEmpty && digits.all isDigit && decide (numberOf digits < positionBound)) =
          true := by
        simp only [Bool.and_eq_true, Bool.not_eq_true', List.isEmpty_eq_false_iff, ne_eq,
          List.all_eq_true, decide_eq_true_eq]
        exact ⟨⟨hne, hall⟩, hbound⟩
      rw [heq] at h
      simp only [hd, if_true] at h
      cases h

/-- Whatever is not read as a position is a name. -/
theorem ofToken_cases (token : String) :
    ofToken token = .name token ∨ ∃ index, ofToken token = .position index := by
  unfold ofToken
  split
  · exact .inr ⟨_, rfl⟩
  · exact .inl rfl

/-- A position shows with the digits that it was written with, less the zeros in front of them. -/
theorem token_ofToken_position {token : String} {digits : List Char} {index : Nat}
    (htoken : token.toList = '@' :: digits) (h : ofToken token = .position index) :
    (ofToken token).token.toList = '@' :: unpadded digits := by
  obtain ⟨digits', htoken', -, hall, -, rfl⟩ := ofToken_eq_position_iff.1 h
  cases htoken.symm.trans htoken'
  rw [h, toList_token_position, toDigits_numberOf hall]

/-- **A token comes back** from what is read from it, unless its position is written with zeros in
front. -/
theorem token_eq_self_iff {token : String} : (ofToken token).token = token ↔ ¬Padded token := by
  rcases ofToken_cases token with hname | ⟨index, hposition⟩
  · have hplain : ¬Padded token := by
      rintro ⟨digits, htoken, -, hall, hbound⟩
      have hpadded : numberOf ('0' :: digits) = numberOf digits := by
        simp [numberOf]
      have : ofToken token = .position (numberOf digits) := by
        refine ofToken_eq_position_iff.2
          ⟨'0' :: digits, htoken, List.cons_ne_nil _ _, fun c hc => ?_, by omega, hpadded⟩
        rcases List.mem_cons.1 hc with rfl | hc
        · rfl
        · exact hall c hc
      rw [hname] at this
      cases this
    rw [hname]
    exact ⟨fun _ => hplain, fun _ => rfl⟩
  · obtain ⟨digits, htoken, hne, hall, hbound, -⟩ := ofToken_eq_position_iff.1 hposition
    rw [← String.toList_inj, token_ofToken_position htoken hposition, htoken, List.cons.injEq,
      and_iff_right rfl, unpadded_eq_self_iff hne]
    constructor
    · rintro hself ⟨rest, htoken', hrest, -, -⟩
      have heq : digits = '0' :: rest := (List.cons.inj (htoken.symm.trans htoken')).2
      exact hrest (hself rest heq)
    · intro hplain rest heq
      by_contra hrest
      refine hplain ⟨rest, heq ▸ htoken, hrest, fun c hc => hall c (by simp [heq, hc]), ?_⟩
      have : numberOf digits = numberOf rest := by simp [heq, numberOf]
      omega

/-- **A position comes back** from its token. -/
theorem ofToken_token_position {index : Nat} (h : index < positionBound) :
    ofToken (position index).token = .position index := by
  have hnumber : numberOf (Nat.toDigits 10 index) = index :=
    Nat.ofDigitChars_toDigits (by decide) (by decide)
  refine ofToken_eq_position_iff.2 ⟨Nat.toDigits 10 index, toList_token_position index,
    Nat.toDigits_ne_nil, fun c hc => ?_, by omega, hnumber⟩
  have hdigit : c.isDigit = true := Nat.isDigit_of_mem_toDigits (by decide) (by decide) hc
  simpa [Char.isDigit, isDigit, Char.le_def] using hdigit

end FieldRef

/-! ## Queries -/

/-- A prepared query shows a column that it references by position under the token for the
position. -/
theorem PreparedQuery.name_of_position {store : Store} {query : Query} {p : PreparedQuery}
    (h : ofQuery store query = .ok p) {column : Nat}
    (hmem : .position column ∈ Query.references query.fields query.conditions) :
    p.schema.names[column]? = some (FieldRef.position column).token := by
  unfold ofQuery at h
  split at h
  · cases h
  · obtain ⟨symbol, -, h⟩ := bind_eq_ok_iff.1 h
    obtain ⟨q, hresolve, h⟩ := bind_eq_ok_iff.1 h
    obtain ⟨plan, -, h⟩ := bind_eq_ok_iff.1 h
    cases h
    obtain ⟨hschema, hrange⟩ := resolve_ok hresolve
    have hlt := hrange column hmem
    rw [hschema, Schema.names_renamed, Schema.names_getElem?, List.getElem?_eq_getElem hlt]
    simp only [Option.map_some, hmem, if_true]

/-- **Tokens and positions.** A token comes back from the reference that is read from it exactly if
it is not one of a position with zeros in front of its number; one with such zeros comes back without
them. Every position comes back from its token. So a query shows a column under the token that it was
referenced by, unless the token has such zeros. -/
theorem FieldRef.token_of_written (token : String) (index : Nat) :
    ((ofToken token).token = token ↔ ¬Padded token) ∧
    (ofToken token = .position index → ∀ digits, token.toList = '@' :: digits →
      (ofToken token).token.toList = '@' :: unpadded digits) ∧
    (index < positionBound → ofToken (position index).token = .position index) ∧
    ∀ store query p, PreparedQuery.ofQuery store query = .ok p →
      ∀ column, ofToken token = .position column →
        ofToken token ∈ Query.references query.fields query.conditions →
          p.schema.names[column]? = some (ofToken token).token ∧
            (p.schema.names[column]? = some token ↔ ¬Padded token) := by
  refine ⟨token_eq_self_iff, fun hposition digits htoken => token_ofToken_position htoken hposition,
    ofToken_token_position, fun store query p h column htoken hmem => ?_⟩
  have hname : p.schema.names[column]? = some (ofToken token).token := by
    rw [htoken] at hmem ⊢
    exact PreparedQuery.name_of_position h hmem
  refine ⟨hname, ?_⟩
  rw [hname, Option.some.injEq]
  exact token_eq_self_iff

/-- `SELECT @01 FROM "P <sample.sym>"`. -/
def FieldRef.sampleQuery : Query := ⟨[.ofToken "@01"], "P", "sample.sym", []⟩

/-- The column is shown as `@1`, not as `@01`. -/
theorem FieldRef.token_of_written_sample : ofToken (position 1).token = position 1 ∧
    Padded "@01" ∧ ∃ p, PreparedQuery.ofQuery Exchange.sampleStore sampleQuery = .ok p ∧
      p.schema.names[1]? = some "@1" ∧ p.schema.names[1]? ≠ some "@01" := by
  obtain ⟨-, hunpadded, hposition, hquery⟩ := token_of_written "@01" 1
  have hpadded : Padded "@01" :=
    ⟨['1'], rfl, List.cons_ne_nil _ _, List.forall_mem_singleton.2 rfl, by decide⟩
  refine ⟨hposition (by decide), hpadded, _, rfl, ?_⟩
  obtain ⟨hname, hiff⟩ := hquery Exchange.sampleStore sampleQuery _ rfl 1 rfl (by decide)
  have htoken := hunpadded rfl ['0', '1'] rfl
  refine ⟨?_, fun h => hiff.1 h hpadded⟩
  rw [hname]
  exact congrArg some (String.toList_inj.1 htoken)

end SymbolTables
