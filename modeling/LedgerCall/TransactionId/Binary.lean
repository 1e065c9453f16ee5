import LedgerCall.TransactionId.Basic

/-!
# The binary form of a transaction id

Five signed numbers, most significant byte first: shard, realm, number and
seconds in eight bytes each, nanoseconds in four. An id that does not fit has no
binary form, and bytes that hold a number out of its range are no id.
-/

set_option autoImplicit false

namespace LedgerCall

def bigEndian : (width n : Nat) → List UInt8
  | 0, _ => []
  | width + 1, n => bigEndian width (n / 256) ++ [UInt8.ofNat (n % 256)]

def ofBigEndian (bytes : List UInt8) : Nat := bytes.foldl (fun n b => 256 * n + b.toNat) 0

/-- The bytes of a signed number, if they hold it. -/
def signedBytes? (width : Nat) (n : Int) : Option (List UInt8) :=
  let half : Int := Nat.pow 2 (8 * width - 1)
  if -half ≤ n ∧ n < half then some (bigEndian width (n.emod (2 * half)).toNat) else none

def ofSignedBytes (bytes : List UInt8) : Int :=
  let n : Int := ofBigEndian bytes
  let half : Int := Nat.pow 2 (8 * bytes.length - 1)
  if n < half then n else n - 2 * half

theorem ofBigEndian_concat (bytes : List UInt8) (byte : UInt8) :
    ofBigEndian (bytes ++ [byte]) = 256 * ofBigEndian bytes + byte.toNat := by
  simp [ofBigEndian]

@[simp] theorem length_bigEndian (width n : Nat) : (bigEndian width n).length = width := by
  induction width generalizing n with
  | zero => rfl
  | succ width ih => simp [bigEndian, ih]

namespace TransactionId

def byteCount : Nat := 36

/-- The binary form, absent when a number is out of range. -/
def toBytes? (t : TransactionId) : Option (List UInt8) := do
  let shard ← signedBytes? 8 t.account.shard
  let realm ← signedBytes? 8 t.account.realm
  let num ← signedBytes? 8 t.account.num
  let seconds ← signedBytes? 8 t.start.seconds
  let nanos ← signedBytes? 4 t.start.nanos
  return shard ++ realm ++ num ++ seconds ++ nanos

def wordAt (bytes : List UInt8) (place : Nat) : Int := ofSignedBytes ((bytes.drop place).take 8)

def ofBytes? (bytes : List UInt8) : Except Fault TransactionId :=
  if bytes.length ≠ byteCount then .error (.byteCount bytes.length)
  else do
    let account ← AccountId.ofInts? (wordAt bytes 0) (wordAt bytes 8) (wordAt bytes 16)
    let start ← Timestamp.ofParts? (wordAt bytes 24) (ofSignedBytes (bytes.drop 32))
    return ⟨account, start⟩

end TransactionId

end LedgerCall
