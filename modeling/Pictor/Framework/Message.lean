import Pictor.Framework.FungibleAsset
import Pictor.Lib.Numeral

/-!
# Rendering and signatures

`string_utils::to_string` at the two types the contract renders, the byte string `claim_credit`
asks the admin to sign, and the `ed25519` functions that check it. Strings are their UTF-8 bytes.

`claimMessage_eq_iff` is what a signature binds. The address is delimited by its leading `@`, so it
is determined; the amount and the request id are written one after the other without a delimiter,
so only the concatenation of their digits is.
-/

namespace Pictor

namespace StringUtils

/-- The ASCII decimal digit. -/
def decimalDigit (d : ℕ) : UInt8 := UInt8.ofNat (48 + d)

/-- The lower-case ASCII hexadecimal digit. -/
def hexDigit (d : ℕ) : UInt8 := UInt8.ofNat (if d < 10 then 48 + d else 87 + d)

/-- `to_string` of a `u64`: decimal, no leading zeros. -/
def decimal (n : UInt64) : List UInt8 := Numeral.numeral 10 decimalDigit n.toNat

/-- `to_string` of an `address`: `@0x` and the hexadecimal digits, leading zeros stripped. -/
def addressLiteral (a : Address) : List UInt8 :=
  [64, 48, 120] ++ Numeral.numeral 16 hexDigit a.toNat

/-- The digit an ASCII hexadecimal letter stands for. -/
def hexValue (c : UInt8) : ℕ := if c.toNat < 58 then c.toNat - 48 else c.toNat - 87

theorem hexValue_hexDigit : ∀ d < 16, hexValue (hexDigit d) = d := by decide

theorem decimalDigit_ne_at : ∀ d < 10, decimalDigit d ≠ 64 := by decide

theorem hexDigit_ne_at : ∀ d < 16, hexDigit d ≠ 64 := by decide

theorem at_notMem_decimal (n : UInt64) : 64 ∉ decimal n := by
  intro h
  obtain ⟨d, hd, heq⟩ := Numeral.exists_digit_of_mem (by decide) h
  exact decimalDigit_ne_at d hd heq

/-- Apart from its first byte, a rendered address has no `@`. -/
theorem at_notMem_addressLiteral_tail (a : Address) :
    64 ∉ 48 :: 120 :: Numeral.numeral 16 hexDigit a.toNat := by
  intro h
  simp only [List.mem_cons] at h
  rcases h with h | h | h
  · exact absurd h (by decide)
  · exact absurd h (by decide)
  · obtain ⟨d, hd, heq⟩ := Numeral.exists_digit_of_mem (by decide) h
    exact hexDigit_ne_at d hd heq

theorem addressLiteral_injective : Function.Injective addressLiteral := by
  intro a b h
  have hn : Numeral.numeral 16 hexDigit a.toNat = Numeral.numeral 16 hexDigit b.toNat :=
    List.append_cancel_left h
  exact BitVec.eq_of_toNat_eq (Numeral.numeral_injective (by decide) hexValue_hexDigit hn)

end StringUtils

/-! ## The message of `claim_credit` -/

/-- `b"PICTOR\\nmessage: "`: the `\\` is an escaped backslash. -/
def claimPrefix : List UInt8 :=
  [80, 73, 67, 84, 79, 82, 92, 110, 109, 101, 115, 115, 97, 103, 101, 58, 32]

example : claimPrefix = "PICTOR\\nmessage: ".toList.map (fun c => UInt8.ofNat c.toNat) := by decide

/-- The bytes `claim_credit` verifies the signature on. -/
def claimMessage (amount requestId : UInt64) (userAddr : Address) : List UInt8 :=
  claimPrefix ++ StringUtils.decimal amount ++ StringUtils.decimal requestId ++
    StringUtils.addressLiteral userAddr

/-- The digits of an amount and a request id, as the message runs them together. -/
def claimDigits (amount requestId : UInt64) : List UInt8 :=
  StringUtils.decimal amount ++ StringUtils.decimal requestId

theorem at_notMem_claimDigits (amount requestId : UInt64) : 64 ∉ claimDigits amount requestId := by
  intro h
  rcases List.mem_append.mp h with h | h
  · exact StringUtils.at_notMem_decimal _ h
  · exact StringUtils.at_notMem_decimal _ h

/-- **What a signed message determines**: the user, and the digits of amount and request id taken
together. -/
theorem claimMessage_eq_iff {a r a' r' : UInt64} {u v : Address} :
    claimMessage a r u = claimMessage a' r' v ↔ u = v ∧ claimDigits a r = claimDigits a' r' := by
  have hsplit : ∀ a r u, claimMessage a r u = claimPrefix ++ (claimDigits a r ++
      64 :: 48 :: 120 :: Numeral.numeral 16 StringUtils.hexDigit u.toNat) := by
    intro a r u
    simp [claimMessage, claimDigits, StringUtils.addressLiteral, List.append_assoc]
  constructor
  · intro h
    rw [hsplit, hsplit] at h
    -- the digits end at the only `@`
    obtain ⟨hdigits, -, haddr⟩ := (List.append_cons_inj_of_notMem (at_notMem_claimDigits a r)
      (StringUtils.at_notMem_addressLiteral_tail u)).mp (List.append_cancel_left h)
    refine ⟨StringUtils.addressLiteral_injective ?_, hdigits⟩
    exact congrArg (64 :: ·) haddr
  · rintro ⟨rfl, h⟩
    rw [hsplit, hsplit, h]

/-! ## `ed25519` -/

namespace Ed25519

def E_WRONG_PUBKEY_SIZE : Abort := .code .ed25519 (Error.invalidArgument 1)
def E_WRONG_SIGNATURE_SIZE : Abort := .code .ed25519 (Error.invalidArgument 2)

def newUnvalidatedPublicKeyFromBytes (bytes : List UInt8) : Result (List UInt8) := do
  Checked.require (bytes.length = 32) E_WRONG_PUBKEY_SIZE
  return bytes

def newSignatureFromBytes (bytes : List UInt8) : Result (List UInt8) := do
  Checked.require (bytes.length = 64) E_WRONG_SIGNATURE_SIZE
  return bytes

end Ed25519

end Pictor
