import MiniCodeAgent.Transaction

/-!
# What a store shows of a transaction

`validated_receipt` and `validated_patch` of `transaction.py`, from which others
learn what a transaction has done. Each takes the lock for itself, so other
processes may come between a receipt and the patch that is read for it.
-/

namespace MiniCodeAgent

section Store

variable {F : Type} [Json.PyFloat F] (P : Platform F) (id : String)

/-- `status in {"prepared", "committed"}`. -/
def isAdmissible (status : Json F) : Except PyExc Bool :=
  match status with
  | .str text => .ok (text = "prepared" || text = "committed")
  | .arr _ => .error (typeError "unhashable type: 'list'")
  | .obj _ => .error (typeError "unhashable type: 'dict'")
  | _ => .ok false

def checkAdmissible (manifest : Manifest F) : TxProg Unit := do
  let admissible ← .done (isAdmissible ((Dict.get? manifest "status").getD .null))
  raise (admissible = false)
    (txError ("transaction receipt is not admissible in " ++
      pyStr P.repr ((Dict.get? manifest "status").getD (.str "unknown")) ++ " state"))

/-- `manifest.get("receipt_id")`. -/
def recordedReceiptId (manifest : Manifest F) : Json F :=
  (Dict.get? manifest "receipt_id").getD .null

/-- `_validated_receipt_for_manifest`. -/
def validatedReceiptForManifest (manifest : Manifest F) : TxProg (Json F) := do
  checkAdmissible P manifest
  raise ((recordedReceiptId manifest).truthy = false)
    (txError "transaction has no prepared receipt")
  let trajectory ← loadTrajectory
  let receipt ← loadReceipt P id
  let receiptId ← .done (pyItem "receipt_id" receipt)
  raise (receiptId.pyEq (recordedReceiptId manifest) = false)
    (txError "transaction receipt id does not match manifest")
  .done (validateReceipt P.digests P.resolve receipt manifest trajectory)
  return receipt

/-- `validated_receipt`. -/
def validatedReceipt : TxProg (Json F) := locked P id (validatedReceiptForManifest P id)

/-- `receipt["payload"].get("prepared", {}).get("patch_sha256")`. -/
def receiptPatchSha256 (receipt : Json F) : Except PyExc (Json F) := do
  let payload ← pyItem "payload" receipt
  let prepared ← pyGet payload "prepared" (.obj [])
  pyGet prepared "patch_sha256" .null

/-- The receipt is only asked where the manifest agrees. -/
def checkPatchDigest (manifest : Manifest F) (receipt : Json F) (digest : String) :
    TxProg Unit := do
  raise (((Dict.get? manifest "prepared_patch_sha256").getD .null).pyEq (.str digest) = false)
    (txError "prepared patch does not match authenticated state")
  let signed ← .done (receiptPatchSha256 receipt)
  raise (signed.pyEq (.str digest) = false)
    (txError "prepared patch does not match authenticated state")

def validatedPatchLocked (manifest : Manifest F) : TxProg ByteArray := do
  let receipt ← validatedReceiptForManifest P id manifest
  let patch ← readBytes .patch (txError "prepared patch exceeds the state size limit")
  checkPatchDigest manifest receipt (P.digests.sha256 patch)
  return patch

/-- `validated_patch`. -/
def validatedPatch : TxProg ByteArray := locked P id (validatedPatchLocked P id)

end Store

end MiniCodeAgent
