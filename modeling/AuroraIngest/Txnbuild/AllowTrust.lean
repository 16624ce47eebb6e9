import AuroraIngest.Captive.Ledger

/-!
# The allow trust operation and its XDR

`AllowTrust.BuildXDR` encodes a `txnbuild.AllowTrust` as an XDR operation: the trustor's
address as an account ID, the asset's code as a 4- or 12-byte code padded with zero bytes,
one trust line flag, and the source account. `AllowTrust.FromXDR` decodes it back, trimming
zero bytes from the code and reading each flag by its bit.

The round trip keeps the trustor, the source account's ID and the `Authorize` flag, and the
code less any zero bytes at its ends. It drops the asset's issuer, which the XDR asset does not
carry, and `AuthorizeToMaintainLiabilities` when `Authorize` is set too: `BuildXDR` encodes
only the first flag set, and `FromXDR` reads both from what it gets
(`AllowTrust.fromXDR_buildXDR`).

The strkey codec of account IDs is a parameter. `xdr.Asset.ToAllowTrustOpAsset`, the trust line
flags and `txnbuild.SetOpSourceAccount` are declared outside src/; they follow the `xdr` and
`txnbuild` packages. A Go string that holds an asset code is its bytes.
-/

namespace AuroraIngest.Txnbuild

open AuroraIngest.Captive.Ledger (Err)

/-- `txnbuild.Asset`: the native asset, or a credit asset by its code and issuer. -/
inductive Asset where
  | native
  | credit (code : List UInt8) (issuer : String)
  deriving DecidableEq, Repr

def Asset.isNative : Asset → Bool
  | .native => true
  | .credit _ _ => false

/-- `GetCode()`: the native asset's code is empty. -/
def Asset.getCode : Asset → List UInt8
  | .native => []
  | .credit code _ => code

/-- `txnbuild.AllowTrust`; the source account, an `Account` or nil, is given by its ID. -/
structure AllowTrust where
  trustor : String
  type : Asset
  authorize : Bool
  authorizeToMaintainLiabilities : Bool
  sourceAccount : Option String
  deriving DecidableEq, Repr

/-- `xdr.AssetCode4` and `xdr.AssetCode12`: `n` bytes. -/
structure AssetCode (n : Nat) where
  bytes : List UInt8
  length_eq : bytes.length = n
  deriving DecidableEq

/-- `xdr.AllowTrustOpAsset`, a union over the two credit asset types. -/
inductive AllowTrustOpAsset where
  | creditAlphanum4 (assetCode4 : AssetCode 4)
  | creditAlphanum12 (assetCode12 : AssetCode 12)
  deriving DecidableEq

/-- `xdr.AllowTrustOp`. -/
structure AllowTrustOp (AccountId : Type) where
  trustor : AccountId
  asset : AllowTrustOpAsset
  authorize : UInt32
  deriving DecidableEq

/-- `xdr.OperationBody`: an allow trust operation, or one of another type. -/
inductive OperationBody (AccountId : Type) where
  | allowTrust (op : AllowTrustOp AccountId)
  | other
  deriving DecidableEq

/-- `xdr.Operation`; a source account is an Ed25519 account ID. -/
structure Operation (AccountId : Type) where
  sourceAccount : Option AccountId
  body : OperationBody AccountId
  deriving DecidableEq

/-- The strkey codec of account IDs: `SetAddress` and `Address`, and the zero value that
`SetAddress` leaves when it fails. -/
structure Strkey (AccountId : Type) where
  setAddress : String → Except Err AccountId
  address : AccountId → String
  zero : AccountId

/-- `xdr.TrustLineFlagsAuthorizedFlag`. -/
def trustLineFlagsAuthorizedFlag : UInt32 := 1

/-- `xdr.TrustLineFlagsAuthorizedToMaintainLiabilitiesFlag`. -/
def trustLineFlagsAuthorizedToMaintainLiabilitiesFlag : UInt32 := 2

/-- `TrustLineFlags.IsAuthorized`. -/
def isAuthorized (flag : UInt32) : Bool := flag &&& trustLineFlagsAuthorizedFlag != 0

/-- `TrustLineFlags.IsAuthorizedToMaintainLiabilitiesFlag`. -/
def isAuthorizedToMaintainLiabilitiesFlag (flag : UInt32) : Bool :=
  flag &&& trustLineFlagsAuthorizedToMaintainLiabilitiesFlag != 0

/-- `copy(bytecode[:], byteArray[0:length])` into an `n`-byte code. -/
def padCode (code : List UInt8) (n : Nat) (h : code.length ≤ n) : AssetCode n :=
  ⟨code ++ List.replicate (n - code.length) 0, by simp; omega⟩

/-- `xdr.Asset.ToAllowTrustOpAsset(code)`: a code of 1 to 4 bytes is an `AssetCode4`, one of 5
to 12 bytes an `AssetCode12`. -/
def toAllowTrustOpAsset (code : List UInt8) : Except Err AllowTrustOpAsset :=
  if h : 1 ≤ code.length ∧ code.length ≤ 4 then .ok (.creditAlphanum4 (padCode code 4 h.2))
  else if h : 5 ≤ code.length ∧ code.length ≤ 12 then .ok (.creditAlphanum12 (padCode code 12 h.2))
  else .error (.new "Asset code length is invalid")

/-- `txnbuild.SetOpSourceAccount`: nothing for a nil account, else the account ID it decodes to,
its error ignored. -/
def setOpSourceAccount {AccountId : Type} (sk : Strkey AccountId) :
    Option String → Option AccountId
  | none => none
  | some id => some ((sk.setAddress id).toOption.getD sk.zero)

/-- `bytes.Trim(s, "\x00")`: the zero bytes at either end removed. -/
def trimNul (s : List UInt8) : List UInt8 :=
  ((s.reverse.dropWhile (· == 0)).reverse).dropWhile (· == 0)

section Codec

variable {AccountId : Type} (sk : Strkey AccountId)

/-- `AllowTrust.BuildXDR`. `xdr.NewOperationBody` cannot fail on an `AllowTrustOp`. -/
def AllowTrust.buildXDR (allowTrust : AllowTrust) : Except Err (Operation AccountId) :=
  match sk.setAddress allowTrust.trustor with
  | .error err => .error (.wrap err "failed to set trustor address")
  | .ok trustor =>
    if allowTrust.type.isNative then
      .error (.new "trustline doesn't exist for a native (XLM) asset")
    else
      match toAllowTrustOpAsset allowTrust.type.getCode with
      | .error err =>
        .error (.wrap err "can't convert asset for trustline to allow trust asset type")
      | .ok asset =>
        let authorize : UInt32 :=
          if allowTrust.authorize then trustLineFlagsAuthorizedFlag
          else if allowTrust.authorizeToMaintainLiabilities then
            trustLineFlagsAuthorizedToMaintainLiabilitiesFlag
          else 0
        .ok ⟨setOpSourceAccount sk allowTrust.sourceAccount,
          .allowTrust ⟨trustor, asset, authorize⟩⟩

/-- The code `FromXDR` reads from an allow trust asset. -/
def AllowTrustOpAsset.code : AllowTrustOpAsset → List UInt8
  | .creditAlphanum4 assetCode4 => trimNul assetCode4.bytes
  | .creditAlphanum12 assetCode12 => trimNul assetCode12.bytes

/-- `AllowTrust.FromXDR`. It sets every field, so the receiver's old value does not matter. -/
def AllowTrust.fromXDR (xdrOp : Operation AccountId) : Except Err AllowTrust :=
  match xdrOp.body with
  | .other => .error (.new "error parsing allow_trust operation from xdr")
  | .allowTrust result =>
    .ok { trustor := sk.address result.trustor
          type := .credit result.asset.code ""
          authorize := isAuthorized result.authorize
          authorizeToMaintainLiabilities := isAuthorizedToMaintainLiabilitiesFlag result.authorize
          sourceAccount := xdrOp.sourceAccount.map sk.address }

/-- Padding adds zero bytes at the end, which trimming takes away again. -/
theorem trimNul_padCode (code : List UInt8) (n : Nat) (h : code.length ≤ n) :
    trimNul (padCode code n h).bytes = trimNul code := by
  simp [trimNul, padCode, List.dropWhile_append, List.dropWhile_replicate]

/-- `ToAllowTrustOpAsset` takes codes of 1 to 12 bytes, and `FromXDR` reads such a code back
less its zero bytes at either end. -/
theorem toAllowTrustOpAsset_code (code : List UInt8) (h : 1 ≤ code.length ∧ code.length ≤ 12) :
    ∃ asset, toAllowTrustOpAsset code = .ok asset ∧ asset.code = trimNul code := by
  unfold toAllowTrustOpAsset
  split
  · exact ⟨_, rfl, trimNul_padCode code 4 _⟩
  · rw [dif_pos (by omega)]
    exact ⟨_, rfl, trimNul_padCode code 12 _⟩

/-- The flag `BuildXDR` writes, read back bit by bit: `Authorize`, and the second flag only
when the first is not set. -/
theorem flags_of_authorize (authorize authorizeToMaintainLiabilities : Bool) :
    let flag : UInt32 :=
      if authorize then trustLineFlagsAuthorizedFlag
      else if authorizeToMaintainLiabilities then trustLineFlagsAuthorizedToMaintainLiabilitiesFlag
      else 0
    isAuthorized flag = authorize ∧
      isAuthorizedToMaintainLiabilitiesFlag flag =
        (!authorize && authorizeToMaintainLiabilities) := by
  cases authorize <;> cases authorizeToMaintainLiabilities <;> decide

theorem map_address_setOpSourceAccount
    (hsk : ∀ s a, sk.setAddress s = .ok a → sk.address a = s) (sourceAccount : Option String)
    (hsource : ∀ id ∈ sourceAccount, (sk.setAddress id).isOk) :
    (setOpSourceAccount sk sourceAccount).map sk.address = sourceAccount := by
  cases sourceAccount with
  | none => rfl
  | some id =>
    cases h : sk.setAddress id with
    | error => simp [h, Except.isOk, Except.toBool] at hsource
    | ok a => simp [setOpSourceAccount, h, Except.toOption, hsk id a h]

/-- The round trip through XDR of an allow trust operation whose trustor and source account are
addresses and whose asset is a credit asset with a code of 1 to 12 bytes: it keeps the trustor,
the source account and `Authorize`, keeps the code less its zero bytes at either end, and drops
the issuer, and `AuthorizeToMaintainLiabilities` when `Authorize` is set. -/
theorem AllowTrust.fromXDR_buildXDR (hsk : ∀ s a, sk.setAddress s = .ok a → sk.address a = s)
    (allowTrust : AllowTrust) (code : List UInt8) (issuer : String)
    (htype : allowTrust.type = .credit code issuer) (hcode : 1 ≤ code.length ∧ code.length ≤ 12)
    (htrustor : (sk.setAddress allowTrust.trustor).isOk)
    (hsource : ∀ id ∈ allowTrust.sourceAccount, (sk.setAddress id).isOk) :
    ∃ op, allowTrust.buildXDR sk = .ok op ∧ AllowTrust.fromXDR sk op =
      .ok { allowTrust with
        type := .credit (trimNul code) ""
        authorizeToMaintainLiabilities :=
          !allowTrust.authorize && allowTrust.authorizeToMaintainLiabilities } := by
  obtain ⟨asset, hasset, hcode'⟩ := toAllowTrustOpAsset_code code hcode
  cases ht : sk.setAddress allowTrust.trustor with
  | error => simp [ht, Except.isOk, Except.toBool] at htrustor
  | ok trustor =>
    obtain ⟨h1, h2⟩ := flags_of_authorize allowTrust.authorize
      allowTrust.authorizeToMaintainLiabilities
    refine ⟨_, by simp only [buildXDR, ht, htype, Asset.isNative, Asset.getCode, hasset]; rfl, ?_⟩
    simp only [fromXDR, hsk _ _ ht, hcode', h1, h2,
      map_address_setOpSourceAccount sk hsk _ hsource]

end Codec

/-- The strkey codec that takes every text for an address of itself. -/
def identityStrkey : Strkey String := ⟨.ok, id, ""⟩

theorem AllowTrust.fromXDR_buildXDR_both_flags :
    ∃ op, (⟨"GTRUSTOR", .credit [85, 83, 68, 0] "GISSUER", true, true, some "GSOURCE"⟩ :
        AllowTrust).buildXDR identityStrkey = .ok op ∧
      AllowTrust.fromXDR identityStrkey op =
        .ok ⟨"GTRUSTOR", .credit [85, 83, 68] "", true, false, some "GSOURCE"⟩ :=
  AllowTrust.fromXDR_buildXDR identityStrkey (fun _ _ h ↦ by cases h; rfl) _ [85, 83, 68, 0]
    "GISSUER" rfl (by decide) rfl
    (by simp [identityStrkey, Except.isOk, Except.toBool])

end AuroraIngest.Txnbuild
