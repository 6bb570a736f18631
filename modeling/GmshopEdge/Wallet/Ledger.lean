import GmshopEdge.Entitlements.Ledger

/-!
# The wallet ledger

`mutateWallet` (`wallet/server/ledger.ts`): a credit or a debit with its entry, retried while other
writers move the balance, and answered with the entry that exists where its key was used before.
-/

namespace Gmshop

open Sql Stmt

structure WalletMutation where
  userId : Id
  direction : WalletDirection
  amountMinor : Minor
  sourceType : WalletSource
  sourceId : Id
  idempotencyKey : WalletKey

structure WalletReply where
  balanceMinor : Int
  duplicate : Bool

/-- `findEntry`, with what the call answers for an entry it finds. -/
def findEntry (s : Db) (key : WalletKey) : Option WalletReply :=
  (s.walletEntries.rows.find? fun e => e.idempotencyKey == key).map fun e =>
    { balanceMinor := e.balanceAfterMinor, duplicate := true }

/-- `9_223_372_036_854_775_807n`. -/
def balanceLimit : Int := 9223372036854775807

def walletBatch (input : WalletMutation) (before after : Int) (version : Nat) : List (Stmt Db) :=
  [update Db.usersT (fun _ u => u.id == input.userId && u.enabled && u.balanceVersion == version)
      (fun _ u => { u with balanceMinor := after, balanceVersion := version + 1 }),
    onChanges fun changes => insert Db.walletEntriesT .abort fun s =>
      (s.users.rows.filter fun u => u.id == input.userId && u.balanceVersion == version + 1 &&
        changes == 1).map fun _ =>
          { userId := input.userId, direction := input.direction, amountMinor := input.amountMinor
            balanceBeforeMinor := before, balanceAfterMinor := after
            sourceType := input.sourceType, sourceId := input.sourceId
            idempotencyKey := input.idempotencyKey }]

/-- One round of the loop: `none` where another writer was faster. -/
def mutateWalletOnce (input : WalletMutation) : Call Site (Option WalletReply) := do
  let user? ← Prog.query fun s => (s.users.get? input.userId).filter (·.enabled)
  match user? with
  | none => Prog.throw ⟨"wallet_user_not_found", 404, "User not found"⟩
  | some user =>
    let before := user.balanceMinor
    let amount : Int := input.amountMinor
    let after := if input.direction = .credit then before + amount else before - amount
    if input.direction = .debit ∧ before < amount then
      Prog.throw ⟨"wallet_insufficient_balance", 409, "Insufficient balance"⟩
    else if balanceLimit < after then
      Prog.throw ⟨"wallet_balance_limit", 409, "Balance limit exceeded"⟩
    else
      Prog.tryCatch (do
        let results ← Prog.commit (.mutateWallet input.userId input.idempotencyKey)
          (walletBatch input before after user.balanceVersion)
        return if results.headD 0 = 1 then some { balanceMinor := after, duplicate := false }
          else none)
        fun err => do
          let duplicate ← Prog.query fun s => findEntry s input.idempotencyKey
          match duplicate with
          | some reply => return some reply
          | none => Prog.fail err

def mutateWalletRounds (input : WalletMutation) : Nat → Call Site WalletReply
  | 0 => Prog.throw ⟨"wallet_conflict", 409, "Balance changed; retry"⟩
  | n + 1 => do
    let reply? ← mutateWalletOnce input
    match reply? with
    | some reply => return reply
    | none => mutateWalletRounds input n

def mutateWallet (input : WalletMutation) : Call Site WalletReply :=
  if input.amountMinor = 0 then Prog.throw ⟨"wallet_amount_invalid", 400, "Amount must be positive"⟩
  else do
    let replay ← Prog.query fun s => findEntry s input.idempotencyKey
    match replay with
    | some reply => return reply
    | none => mutateWalletRounds input 4

end Gmshop
