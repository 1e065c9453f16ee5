import Mathlib.Data.List.Induction
import Mathlib.Data.Nat.Digits.Defs
import LedgerCall.TransactionId.Binary

/-!
# The binary form, both ways

Writing an id in bytes and reading bytes as an id undo each other. An id has a binary form if
its numbers fit into their places, and bytes hold an id if the numbers in them may stand in
one.
-/

set_option autoImplicit false

namespace LedgerCall

/-- The number that bytes stand for in two's complement, most significant first: of all that agree
with their number in base 256 up to its width, the one nearest to zero. -/
def signedNumber (bytes : List UInt8) : Int :=
  ((Nat.ofDigits 256 (bytes.reverse.map UInt8.toNat) : Nat) : Int).bmod (256 ^ bytes.length)

theorem ofBigEndian_eq_ofDigits (bytes : List UInt8) :
    ofBigEndian bytes = Nat.ofDigits 256 (bytes.reverse.map UInt8.toNat) := by
  induction bytes using List.reverseRecOn with
  | nil => rfl
  | append_singleton bytes byte ih =>
    simp [ofBigEndian_concat, ih, Nat.ofDigits_cons, Nat.add_comm]

theorem ofBigEndian_bigEndian (width n : Nat) :
    ofBigEndian (bigEndian width n) = n % 256 ^ width := by
  induction width generalizing n with
  | zero => simp [bigEndian, ofBigEndian, Nat.mod_one]
  | succ width ih =>
    calc ofBigEndian (bigEndian (width + 1) n)
        = 256 * (n / 256 % 256 ^ width) + n % 256 := by simp [bigEndian, ofBigEndian_concat, ih]
      _ = n % (256 * 256 ^ width) := by rw [Nat.mod_mul, Nat.add_comm]
      _ = n % 256 ^ (width + 1) := by rw [Nat.pow_succ']

theorem ofBigEndian_lt (bytes : List UInt8) : ofBigEndian bytes < 256 ^ bytes.length := by
  induction bytes using List.reverseRecOn with
  | nil => decide
  | append_singleton bytes byte ih =>
    have hbyte := byte.toNat_lt
    simp only [ofBigEndian_concat, List.length_append, List.length_singleton, Nat.pow_succ]
    omega

theorem bigEndian_ofBigEndian (bytes : List UInt8) :
    bigEndian bytes.length (ofBigEndian bytes) = bytes := by
  induction bytes using List.reverseRecOn with
  | nil => rfl
  | append_singleton bytes byte ih =>
    have hbyte := byte.toNat_lt
    have hbefore : (256 * ofBigEndian bytes + byte.toNat) / 256 = ofBigEndian bytes := by omega
    have hlast : (256 * ofBigEndian bytes + byte.toNat) % 256 = byte.toNat := by omega
    simp [ofBigEndian_concat, bigEndian, hbefore, hlast, ih]

theorem two_mul_half {width : Nat} (h : 0 < width) : 2 * 2 ^ (8 * width - 1) = 256 ^ width := by
  rw [← Nat.pow_succ', show (8 * width - 1).succ = 8 * width by omega, Nat.pow_mul]

theorem signedNumber_eq_bmod (bytes : List UInt8) :
    signedNumber bytes = (ofBigEndian bytes : Int).bmod (256 ^ bytes.length) := by
  rw [signedNumber, ofBigEndian_eq_ofDigits]

theorem ofSignedBytes_eq {bytes : List UInt8} (h : 0 < bytes.length) :
    ofSignedBytes bytes = signedNumber bytes := by
  have hhalf := two_mul_half h
  have hlt := ofBigEndian_lt bytes
  have hmod : (ofBigEndian bytes : Int) % (256 ^ bytes.length : Nat) = ofBigEndian bytes :=
    Int.emod_eq_of_lt (by omega) (by omega)
  rw [signedNumber_eq_bmod, Int.bmod_def, hmod, ← hhalf]
  simp only [ofSignedBytes, Nat.pow_eq]
  split <;> split <;> omega

/-- A number has bytes of a width exactly if some stand for it, and then those. -/
theorem signedBytes?_eq_some_iff {width : Nat} (h : 0 < width) {n : Int} {bytes : List UInt8} :
    signedBytes? width n = some bytes ↔ bytes.length = width ∧ signedNumber bytes = n := by
  have hhalf := two_mul_half h
  have hpos : 0 < 256 ^ width := Nat.pow_pos (by decide)
  constructor
  · intro hbytes
    simp only [signedBytes?, Nat.pow_eq, Option.ite_none_right_eq_some, Option.some.injEq] at hbytes
    obtain ⟨hrange, rfl⟩ := hbytes
    have hdouble : 2 * ((2 ^ (8 * width - 1) : Nat) : Int) = (256 ^ width : Nat) := by omega
    have hnonneg : 0 ≤ n % (256 ^ width : Nat) := Int.emod_nonneg n (by omega)
    have hlt : n % (256 ^ width : Nat) < (256 ^ width : Nat) := Int.emod_lt_of_pos n (by omega)
    refine ⟨length_bigEndian _ _, ?_⟩
    rw [signedNumber_eq_bmod, length_bigEndian, ofBigEndian_bigEndian, hdouble]
    change (((n % (256 ^ width : Nat)).toNat % 256 ^ width : Nat) : Int).bmod _ = n
    rw [Nat.mod_eq_of_lt (by omega), Int.toNat_of_nonneg hnonneg, Int.emod_bmod]
    exact Int.bmod_eq_of_le (by omega) (by omega)
  · rintro ⟨rfl, rfl⟩
    have hlt := ofBigEndian_lt bytes
    have hle := @Int.le_bmod (ofBigEndian bytes) _ hpos
    have hge := @Int.bmod_lt (ofBigEndian bytes) _ hpos
    rw [← signedNumber_eq_bmod] at hle hge
    have hdouble : 2 * ((2 ^ (8 * bytes.length - 1) : Nat) : Int) = (256 ^ bytes.length : Nat) := by
      omega
    have hmod : signedNumber bytes % (256 ^ bytes.length : Nat) = ofBigEndian bytes := by
      rw [signedNumber_eq_bmod, Int.bmod_emod]
      exact Int.emod_eq_of_lt (by omega) (by omega)
    have hback : bigEndian bytes.length (signedNumber bytes % (256 ^ bytes.length : Nat)).toNat =
        bytes := by
      rw [hmod, Int.toNat_natCast, bigEndian_ofBigEndian]
    simp only [signedBytes?, Nat.pow_eq, hdouble]
    rw [if_pos (by omega)]
    exact congrArg some hback

namespace TransactionId

def numberAt (bytes : List UInt8) (place width : Nat) : Int :=
  signedNumber ((bytes.drop place).take width)

/-- The bytes are those of the five numbers of an id, one after another. -/
structure Spelt (bytes : List UInt8) (t : TransactionId) : Prop where
  length_eq : bytes.length = 36
  shard_eq : numberAt bytes 0 8 = t.account.shard
  realm_eq : numberAt bytes 8 8 = t.account.realm
  num_eq : numberAt bytes 16 8 = t.account.num
  seconds_eq : numberAt bytes 24 8 = t.start.seconds
  nanos_eq : numberAt bytes 32 4 = t.start.nanos

theorem numberAt_append (before piece after : List UInt8) {place width : Nat}
    (hplace : before.length = place) (hwidth : piece.length = width) :
    numberAt (before ++ (piece ++ after)) place width = signedNumber piece := by
  subst hplace hwidth
  simp [numberAt]

theorem eq_append_of_length {bytes : List UInt8} (h : bytes.length = 36) :
    bytes.take 8 ++ (bytes.drop 8).take 8 ++ (bytes.drop 16).take 8 ++ (bytes.drop 24).take 8 ++
      (bytes.drop 32).take 4 = bytes := by
  have hnext : ∀ place, (bytes.drop place).take 8 ++ bytes.drop (place + 8) = bytes.drop place := by
    intro place
    rw [← List.drop_drop, List.take_append_drop]
  have hlast : (bytes.drop 32).take 4 = bytes.drop 32 := List.take_of_length_le (by simp [h])
  rw [hlast, List.append_assoc, hnext 24, List.append_assoc, hnext 16, List.append_assoc, hnext 8,
    List.take_append_drop]

theorem spelt_append {t : TransactionId} {shard realm num seconds nanos : List UInt8}
    (hshard : shard.length = 8 ∧ signedNumber shard = t.account.shard)
    (hrealm : realm.length = 8 ∧ signedNumber realm = t.account.realm)
    (hnum : num.length = 8 ∧ signedNumber num = t.account.num)
    (hseconds : seconds.length = 8 ∧ signedNumber seconds = t.start.seconds)
    (hnanos : nanos.length = 4 ∧ signedNumber nanos = t.start.nanos) :
    Spelt (shard ++ realm ++ num ++ seconds ++ nanos) t where
  length_eq := by simp [hshard, hrealm, hnum, hseconds, hnanos]
  shard_eq := by
    have hat := numberAt_append [] shard (realm ++ num ++ seconds ++ nanos)
      (show _ = 0 from rfl) hshard.1
    simpa only [List.append_assoc, List.nil_append, hshard.2] using hat
  realm_eq := by
    have hat := numberAt_append shard realm (num ++ seconds ++ nanos) hshard.1 hrealm.1
    simpa only [List.append_assoc, hrealm.2] using hat
  num_eq := by
    have hat := numberAt_append (shard ++ realm) num (seconds ++ nanos)
      (show _ = 16 by simp [hshard, hrealm]) hnum.1
    simpa only [List.append_assoc, hnum.2] using hat
  seconds_eq := by
    have hat := numberAt_append (shard ++ realm ++ num) seconds nanos
      (show _ = 24 by simp [hshard, hrealm, hnum]) hseconds.1
    simpa only [List.append_assoc, hseconds.2] using hat
  nanos_eq := by
    have hat := numberAt_append (shard ++ realm ++ num ++ seconds) nanos []
      (show _ = 32 by simp [hshard, hrealm, hnum, hseconds]) hnanos.1
    simpa only [List.append_assoc, List.append_nil, hnanos.2] using hat

/-- The binary form of an id spells it out, and nothing else does. -/
theorem toBytes?_eq_some_iff {t : TransactionId} {bytes : List UInt8} :
    t.toBytes? = some bytes ↔ Spelt bytes t := by
  constructor
  · intro h
    simp only [toBytes?, Option.bind_eq_bind, Option.bind_eq_some_iff, Option.pure_def,
      Option.some.injEq, signedBytes?_eq_some_iff (show 0 < 8 by decide),
      signedBytes?_eq_some_iff (show 0 < 4 by decide)] at h
    obtain ⟨shard, hshard, realm, hrealm, num, hnum, seconds, hseconds, nanos, hnanos, rfl⟩ := h
    exact spelt_append hshard hrealm hnum hseconds hnanos
  · intro h
    have hlength := h.length_eq
    have hpiece : ∀ place width, 0 < width → place + width ≤ 36 →
        ∀ n, numberAt bytes place width = n →
          signedBytes? width n = some ((bytes.drop place).take width) := by
      intro place width hwidth hplace n hn
      refine (signedBytes?_eq_some_iff hwidth).mpr ⟨?_, hn⟩
      simp only [List.length_take, List.length_drop]
      omega
    simp only [toBytes?, hpiece 0 8 (by decide) (by decide) _ h.shard_eq,
      hpiece 8 8 (by decide) (by decide) _ h.realm_eq,
      hpiece 16 8 (by decide) (by decide) _ h.num_eq,
      hpiece 24 8 (by decide) (by decide) _ h.seconds_eq,
      hpiece 32 4 (by decide) (by decide) _ h.nanos_eq]
    exact congrArg some (eq_append_of_length hlength)

theorem wordAt_eq {bytes : List UInt8} (h : bytes.length = 36) {place : Nat} (hplace : place < 36) :
    wordAt bytes place = numberAt bytes place 8 := by
  apply ofSignedBytes_eq
  simp only [List.length_take, List.length_drop]
  omega

theorem lastNumber_eq {bytes : List UInt8} (h : bytes.length = 36) :
    ofSignedBytes (bytes.drop 32) = numberAt bytes 32 4 := by
  rw [numberAt, List.take_of_length_le (by simp [h])]
  exact ofSignedBytes_eq (by simp [h])

theorem ofBytes?_of_length {bytes : List UInt8} (h : bytes.length = 36) :
    ofBytes? bytes = do
      let account ←
        AccountId.ofInts? (numberAt bytes 0 8) (numberAt bytes 8 8) (numberAt bytes 16 8)
      let start ← Timestamp.ofParts? (numberAt bytes 24 8) (numberAt bytes 32 4)
      return ⟨account, start⟩ := by
  simp only [ofBytes?, byteCount, h, ne_eq, not_true_eq_false, if_false, wordAt_eq h, Nat.reduceLT,
    lastNumber_eq h]

theorem ofBytes?_eq_ok_iff {t : TransactionId} {bytes : List UInt8} :
    ofBytes? bytes = .ok t ↔ Spelt bytes t := by
  constructor
  · intro h
    by_cases hlength : bytes.length = 36
    · rw [ofBytes?_of_length hlength] at h
      cases haccount : AccountId.ofInts? (numberAt bytes 0 8) (numberAt bytes 8 8)
          (numberAt bytes 16 8) with
      | error fault => simp [haccount] at h
      | ok account =>
        cases hstart : Timestamp.ofParts? (numberAt bytes 24 8) (numberAt bytes 32 4) with
        | error fault => simp [haccount, hstart] at h
        | ok start =>
          simp only [haccount, hstart, ok_bind, pure_eq_ok, Except.ok.injEq] at h
          subst h
          obtain ⟨hshard, hrealm, hnum⟩ := AccountId.ofInts?_eq_ok_iff.mp haccount
          obtain ⟨hseconds, hnanos⟩ := Timestamp.ofParts?_eq_ok_iff.mp hstart
          exact ⟨hlength, hshard, hrealm, hnum, hseconds, hnanos⟩
    · simp [ofBytes?, byteCount, hlength] at h
  · intro h
    have haccount := AccountId.ofInts?_eq_ok_iff.mpr ⟨h.shard_eq, h.realm_eq, h.num_eq⟩
    have hstart := Timestamp.ofParts?_eq_ok_iff.mpr ⟨h.seconds_eq, h.nanos_eq⟩
    rw [ofBytes?_of_length h.length_eq, haccount, hstart]
    rfl

/-- The numbers of the id fit into their places. -/
structure Fits (t : TransactionId) : Prop where
  shard_lt : t.account.shard < 2 ^ 63
  realm_lt : t.account.realm < 2 ^ 63
  num_lt : t.account.num < 2 ^ 63
  le_seconds : -2 ^ 63 ≤ t.start.seconds
  seconds_lt : t.start.seconds < 2 ^ 63

def placeOf : AccountPart → Nat
  | .shard => 0
  | .realm => 8
  | .num => 16

/-- The numbers in the bytes are those of an id. -/
structure Legible (bytes : List UInt8) : Prop where
  length_eq : bytes.length = 36
  part_nonneg (part : AccountPart) : 0 ≤ numberAt bytes (placeOf part) 8
  nanos_nonneg : 0 ≤ numberAt bytes 32 4
  nanos_lt : numberAt bytes 32 4 < 10 ^ 9

/-- What is wrong with the bytes: how many there are, or a number that stands in them. -/
inductive Misspelt (bytes : List UInt8) : Fault → Prop
  | count (h : bytes.length ≠ 36) : Misspelt bytes (.byteCount bytes.length)
  | part (part : AccountPart) (h : numberAt bytes (placeOf part) 8 < 0) :
      Misspelt bytes (.negativePart part (numberAt bytes (placeOf part) 8))
  | nanos (h : ¬ (0 ≤ numberAt bytes 32 4 ∧ numberAt bytes 32 4 < 10 ^ 9)) :
      Misspelt bytes (.nanosRange (numberAt bytes 32 4))

theorem numberAt_range (bytes : List UInt8) (place : Nat) (h : place + 8 ≤ bytes.length) :
    -2 ^ 63 ≤ numberAt bytes place 8 ∧ numberAt bytes place 8 < 2 ^ 63 := by
  have hwidth : ((bytes.drop place).take 8).length = 8 := by
    simp only [List.length_take, List.length_drop]
    omega
  rw [numberAt, signedNumber_eq_bmod, hwidth]
  have hpos : 0 < 256 ^ 8 := by decide
  have hle := @Int.le_bmod (ofBigEndian ((bytes.drop place).take 8)) _ hpos
  have hlt := @Int.bmod_lt (ofBigEndian ((bytes.drop place).take 8)) _ hpos
  omega

theorem Spelt.fits {t : TransactionId} {bytes : List UInt8} (h : Spelt bytes t) : t.Fits := by
  have hlength := h.length_eq
  have hshard := numberAt_range bytes 0 (by omega)
  have hrealm := numberAt_range bytes 8 (by omega)
  have hnum := numberAt_range bytes 16 (by omega)
  have hseconds := numberAt_range bytes 24 (by omega)
  rw [h.shard_eq] at hshard
  rw [h.realm_eq] at hrealm
  rw [h.num_eq] at hnum
  rw [h.seconds_eq] at hseconds
  exact ⟨by omega, by omega, by omega, hseconds.1, hseconds.2⟩

theorem exists_signedBytes? {n : Int} (hle : -2 ^ 63 ≤ n) (hlt : n < 2 ^ 63) :
    ∃ bytes, signedBytes? 8 n = some bytes := by
  simp only [signedBytes?, Nat.pow_eq]
  rw [if_pos (by omega)]
  exact ⟨_, rfl⟩

theorem Fits.exists_spelt {t : TransactionId} (h : t.Fits) : ∃ bytes, Spelt bytes t := by
  have hshard := h.shard_lt
  have hrealm := h.realm_lt
  have hnum := h.num_lt
  have hnanos := t.start.nanos_lt
  obtain ⟨shard, hs⟩ := @exists_signedBytes? t.account.shard (by omega) (by omega)
  obtain ⟨realm, hr⟩ := @exists_signedBytes? t.account.realm (by omega) (by omega)
  obtain ⟨num, hn⟩ := @exists_signedBytes? t.account.num (by omega) (by omega)
  obtain ⟨seconds, hc⟩ := exists_signedBytes? h.le_seconds h.seconds_lt
  obtain ⟨nanos, hp⟩ : ∃ bytes, signedBytes? 4 t.start.nanos = some bytes := by
    simp only [signedBytes?, Nat.pow_eq]
    rw [nanosPerSecond] at hnanos
    rw [if_pos (by omega)]
    exact ⟨_, rfl⟩
  have hbytes : t.toBytes? = some (shard ++ realm ++ num ++ seconds ++ nanos) := by
    simp only [toBytes?, hs, hr, hn, hc, hp]
    rfl
  exact ⟨_, toBytes?_eq_some_iff.mp hbytes⟩

theorem Legible.exists_spelt {bytes : List UInt8} (h : Legible bytes) : ∃ t, Spelt bytes t := by
  have hlt := h.nanos_lt
  have hle := h.nanos_nonneg
  have hnanos : (numberAt bytes 32 4).toNat < nanosPerSecond := by
    simp only [nanosPerSecond]
    omega
  have hpart : ∀ part, numberAt bytes (placeOf part) 8 = (numberAt bytes (placeOf part) 8).toNat :=
    fun part => (Int.toNat_of_nonneg (h.part_nonneg part)).symm
  exact ⟨⟨⟨_, _, _⟩, ⟨numberAt bytes 24 8, _, hnanos⟩⟩, h.length_eq, hpart .shard, hpart .realm,
    hpart .num, rfl, (Int.toNat_of_nonneg hle).symm⟩

/-- Bytes that are not those of an id are refused, with something that is wrong with them. -/
theorem ofBytes?_of_not_legible {bytes : List UInt8} (h : ¬ Legible bytes) :
    ∃ fault, ofBytes? bytes = .error fault ∧ Misspelt bytes fault := by
  by_cases hlength : bytes.length = 36
  · rw [ofBytes?_of_length hlength]
    by_cases hshard : numberAt bytes 0 8 < 0
    · exact ⟨_, by simp [AccountId.ofInts?, hshard, placeOf], .part .shard hshard⟩
    by_cases hrealm : numberAt bytes 8 8 < 0
    · exact ⟨_, by simp [AccountId.ofInts?, hshard, hrealm, placeOf], .part .realm hrealm⟩
    by_cases hnum : numberAt bytes 16 8 < 0
    · exact ⟨_, by simp [AccountId.ofInts?, hshard, hrealm, hnum, placeOf], .part .num hnum⟩
    have hnanos : ¬ (0 ≤ numberAt bytes 32 4 ∧ numberAt bytes 32 4 < 10 ^ 9) := by
      intro hrange
      refine h ⟨hlength, fun part => ?_, hrange.1, hrange.2⟩
      cases part with
      | shard => exact Int.not_lt.mp hshard
      | realm => exact Int.not_lt.mp hrealm
      | num => exact Int.not_lt.mp hnum
    have hstart : Timestamp.ofParts? (numberAt bytes 24 8) (numberAt bytes 32 4) =
        .error (.nanosRange (numberAt bytes 32 4)) := dif_neg hnanos
    exact ⟨_, by simp [AccountId.ofInts?, hshard, hrealm, hnum, hstart], .nanos hnanos⟩
  · exact ⟨_, by simp [ofBytes?, byteCount, hlength], .count hlength⟩

/-- An id has a binary form exactly if its numbers fit, and that has 36 bytes and is read as the
id. Bytes are read as an id exactly if the numbers in them are those of one, and they are its
binary form. All others are refused. -/
theorem binary_form_bijective :
    (∀ t : TransactionId,
      (t.Fits ∧ ∃ bytes, t.toBytes? = some bytes ∧ bytes.length = 36 ∧ ofBytes? bytes = .ok t) ∨
        (¬ t.Fits ∧ t.toBytes? = none)) ∧
    ∀ bytes : List UInt8,
      (Legible bytes ∧ ∃ t, ofBytes? bytes = .ok t ∧ Spelt bytes t ∧ t.toBytes? = some bytes) ∨
        (¬ Legible bytes ∧ ∃ fault, ofBytes? bytes = .error fault ∧ Misspelt bytes fault) := by
  constructor
  · intro t
    by_cases hfits : t.Fits
    · obtain ⟨bytes, hspelt⟩ := hfits.exists_spelt
      exact .inl ⟨hfits, bytes, toBytes?_eq_some_iff.mpr hspelt, hspelt.length_eq,
        ofBytes?_eq_ok_iff.mpr hspelt⟩
    · have hnone : t.toBytes? = none := by
        cases hbytes : t.toBytes? with
        | none => rfl
        | some bytes => exact absurd (toBytes?_eq_some_iff.mp hbytes).fits hfits
      exact .inr ⟨hfits, hnone⟩
  · intro bytes
    by_cases hlegible : Legible bytes
    · obtain ⟨t, hspelt⟩ := hlegible.exists_spelt
      exact .inl ⟨hlegible, t, ofBytes?_eq_ok_iff.mpr hspelt, hspelt,
        toBytes?_eq_some_iff.mpr hspelt⟩
    · exact .inr ⟨hlegible, ofBytes?_of_not_legible hlegible⟩

end TransactionId

end LedgerCall
