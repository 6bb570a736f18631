import GmshopEdge.Lib.Guarantee
import GmshopEdge.Secrets.Rewrites

/-!
# Re-encryption beside the operations of the shop

The operations write envelopes of their own: a form saves a credential, an order brings inputs, a delivery
its content, the removal of a customer's data clears the inputs. Each row remembers what an operation wrote
last (`SecretRow.written`).

The UPDATEs of a rotation name the row and not the value that was read, so that a write in between is lost:
`rotationKeeps` is the condition that there was none.
-/

namespace Gmshop

open List hiding Vector
open Sql Stmt Prog Utf16 Bare

/-! ## Operations -/

inductive SecretWrite where
  | insert (field : SecretField) (key : String) (value : Option Utf16) (link : Option String)
  | set (field : SecretField) (key : String) (value : Option Utf16)
  /-- `INSERT … ON CONFLICT(key) DO UPDATE` of a setting. -/
  | put (key : String) (value : Utf16) (isSecret : Bool)
  /-- `UPDATE … WHERE id = ? AND column = ?` -/
  | replace (field : SecretField) (key : String) (old next : Utf16)
  | delete (field : SecretField) (key : String)

def SecretRow.edit (value : Option Utf16) (r : SecretRow) : SecretRow := { r with value := value, written := value }

def SecretWrite.statements : SecretWrite → List (Stmt SecretStore)
  | .insert field key value link =>
    [Stmt.insert (SecretStore.rowsT field) .abort fun _ => [⟨key, value, false, link, value⟩]]
  | .set field key value => [setSecret field key (fun _ => true) value (SecretRow.edit value)]
  | .put key value isSecret =>
    [setSecret .settings key (fun _ => true) (some value) fun r => { r.edit value with isSecret := isSecret },
      Stmt.insert (SecretStore.rowsT .settings) .doNothing fun _ => [⟨key, some value, isSecret, none, some value⟩]]
  | .replace field key old next =>
    [setSecret field key (fun r => r.value == some old) (some next) (SecretRow.edit (some next))]
  | .delete field key => [Stmt.delete (SecretStore.rowsT field) fun _ r => r.key == key]

/-- An operation reads what it needs and writes in one batch; what it answers is left out. -/
def secretOperation (decide : SecretStore → List SecretWrite) : SecretProg Unit := do
  let writes ← query decide
  let _ ← commit .operation (writes.flatMap SecretWrite.statements)
  .done ()

def savePaymentChannel (id : String) (credential : Option Utf16) : SecretProg Unit :=
  secretOperation fun s => [.set (.column .paymentChannels) id
    (credential <|> (s.find (.column .paymentChannels) id).bind SecretRow.value)]

def resolveProviderSecret (id : List Char) (envelope : Utf16) : SecretProg Unit :=
  secretOperation fun _ => [.put (String.ofList (authSecretPrefix ++ id ++ authSecretSuffix))
    (Json.print (.str envelope)) true]

def replaceDeliveredContent (id : String) (encrypted : Utf16 → Option Utf16) : SecretProg Unit :=
  secretOperation fun s =>
    match (s.find (.column .deliveryRecords) id).bind SecretRow.value with
    | none => []
    | some content => ((encrypted content).map (SecretWrite.replace (.column .deliveryRecords) id content)).toList

def prepareCustomerDataDeletion (items values : List String) : SecretProg Unit :=
  secretOperation fun _ => items.map (SecretWrite.set .orderInputs · (some (ascii "\x7b\x7d"))) ++
    values.map (SecretWrite.delete (.column .entitlementAuthorizationValues))

inductive SecretCall where
  | rotation (ivs : SecretField → String → Utf16 → Vector UInt8 12) (limitPerField : Nat)
  | operation (decide : SecretStore → List SecretWrite)
  | savePaymentChannel (id : String) (credential : Option Utf16)
  | resolveProviderSecret (id : List Char) (envelope : Utf16)
  | replaceDeliveredContent (id : String) (encrypted : Utf16 → Option Utf16)
  | prepareCustomerDataDeletion (items values : List String)

def secretCode (c : WebCrypto) (keyring : Utf16) : SecretCall → SecretProg Unit
  | .rotation ivs limitPerField => (progressivelyReencryptSecrets c keyring ivs limitPerField).void
  | .operation decide => secretOperation decide
  | .savePaymentChannel id credential => Gmshop.savePaymentChannel id credential
  | .resolveProviderSecret id envelope => Gmshop.resolveProviderSecret id envelope
  | .replaceDeliveredContent id encrypted => Gmshop.replaceDeliveredContent id encrypted
  | .prepareCustomerDataDeletion items values => Gmshop.prepareCustomerDataDeletion items values

/-! ## The property -/

def ReadsWritten (c : WebCrypto) (keyring : Utf16) (s : SecretStore) : Prop :=
  ∀ field, ∀ r ∈ (s.rows field).rows,
    readSecrets c keyring field r.key r.value = readSecrets c keyring field r.key r.written

/-- A rotation writes to rows that no operation has written since it read them. New envelopes open (the
current key has an id that an envelope can carry) and the texts come back unchanged; stock entries, whose
purpose is another, are left out. -/
def rotationKeeps (c : WebCrypto) (keyring : Utf16) (x : SecretSite) (s : SecretStore) : Prop :=
  match x with
  | .rotate field updates => field ≠ .column .stockEntries ∧
      (∀ parsed ∈ (parseKeyring keyring).toOption, Carried parsed.current) ∧
      ∀ u ∈ updates, (∀ r ∈ (s.rows field).rows, r.key = u.1.key → r.written = u.1.written) ∧
        ∀ e ∈ readSecrets c keyring field u.1.key u.1.value, ∀ text ∈ e.2.toOption, plaintext text = text
  | .operation => True

instance (id : Utf16) : Decidable (Carried id) := inferInstanceAs (Decidable (_ ∧ _))

instance (c : WebCrypto) (keyring : Utf16) (x : SecretSite) (s : SecretStore) :
    Decidable (rotationKeeps c keyring x s) := by
  cases x <;> unfold rotationKeeps <;> infer_instance

/-! ## Statements -/

variable {p : SecretRow → Bool} {s t : SecretStore} {value : Option Utf16} {m n : Nat}
  {f : SecretRow → SecretRow} {key : String} {field : SecretField}
  {ivs : SecretField → String → Utf16 → Vector UInt8 12}

theorem setSecret_ok (h : setSecret field key p value f n s = .ok (m, t)) : ∃ table : Table SecretRow,
      table.rows = (s.rows field).rows.map (fun r => if r.key == key && p r then f r else r) ∧
        t.rows = Function.update s.rows field table := by
  unfold setSecret at h
  cases hu : update (SecretStore.rowsT field) (fun _ r => r.key == key && p r) (fun _ r => f r) n s with
  | error a => simp [hu, Bind.bind, Except.bind] at h
  | ok result =>
    obtain ⟨k, u⟩ := result
    obtain ⟨-, table, htable, rfl⟩ := update_ok hu
    refine ⟨table, htable, ?_⟩
    simp only [hu, Bind.bind, Except.bind] at h
    split at h
    · cases h
    · next hcap =>
      obtain ⟨-, capacity, -, hset⟩ := update_ok hcap
      simp only [pure, Except.pure, Except.ok.injEq, Prod.mk.injEq] at h
      rw [← h.2, hset]
      rfl

variable {c : WebCrypto} {keyring : Utf16}

section

variable (hs : ReadsWritten c keyring s)
include hs

theorem readsWritten_update {table : Table SecretRow} (ht : t.rows = Function.update s.rows field table)
    (hrows : ∀ r ∈ table.rows, r ∈ (s.rows field).rows ∨
      readSecrets c keyring field r.key r.value = readSecrets c keyring field r.key r.written) :
    ReadsWritten c keyring t := by
  intro other r hr
  rw [ht] at hr
  by_cases hother : other = field
  · subst hother
    rw [Function.update_self] at hr
    rcases hrows r hr with hold | hnew
    · exact hs other r hold
    · exact hnew
  · rw [Function.update_of_ne hother] at hr
    exact hs other r hr

theorem readsWritten_setSecret (hf : ∀ r, (f r).value = (f r).written)
    (h : setSecret field key p value f n s = .ok (m, t)) : ReadsWritten c keyring t := by
  obtain ⟨table, htable, ht⟩ := setSecret_ok h
  refine readsWritten_update hs ht fun r hr => ?_
  rw [htable, mem_map] at hr
  obtain ⟨old, hold, rfl⟩ := hr
  split
  · rw [hf]
    exact Or.inr rfl
  · exact Or.inl hold

theorem readsWritten_insert {conflict : OnConflict} {row : SecretRow} (hrow : row.value = row.written)
    (h : Stmt.insert (SecretStore.rowsT field) conflict (fun _ => [row]) n s = .ok (m, t)) :
    ReadsWritten c keyring t := by
  obtain ⟨-, table, htable, rfl⟩ := insert_ok h
  refine readsWritten_update hs (show _ = Function.update s.rows field table from rfl) fun r hr => ?_
  rw [htable, mem_append] at hr
  rcases hr with hold | hnew
  · exact Or.inl hold
  · have hmem := (admitted_sublist ..).subset hnew
    rw [mem_singleton] at hmem
    rw [hmem, hrow]
    exact Or.inr rfl

end

theorem readsWritten_write (w : SecretWrite) :
    ∀ st ∈ w.statements, Within (fun s t => ReadsWritten c keyring s → ReadsWritten c keyring t) st := by
  intro st hst n s m t h hs
  cases w with
  | insert field key value link =>
    obtain rfl := mem_singleton.mp hst
    exact readsWritten_insert hs rfl h
  | set field key value =>
    obtain rfl := mem_singleton.mp hst
    exact readsWritten_setSecret hs (fun _ => rfl) h
  | put key value isSecret =>
    rcases mem_cons.mp hst with rfl | hst
    · exact readsWritten_setSecret hs (fun _ => rfl) h
    · obtain rfl := mem_singleton.mp hst
      exact readsWritten_insert hs rfl h
  | replace field key old next =>
    obtain rfl := mem_singleton.mp hst
    exact readsWritten_setSecret hs (fun _ => rfl) h
  | delete field key =>
    obtain rfl := mem_singleton.mp hst
    obtain ⟨-, table, htable, rfl⟩ := delete_ok h
    refine readsWritten_update hs (show _ = Function.update s.rows field table from rfl) fun r hr => ?_
    rw [htable, mem_filter] at hr
    exact Or.inl hr.1

/-! ## A page is written back -/

theorem readSecrets_rewritten (hc : c.RoundTrips) {value next purpose : Utf16}
    (hpurpose : secretPurpose field key = some purpose)
    (hcurrent : ∀ parsed ∈ (parseKeyring keyring).toOption, Carried parsed.current)
    (hplain : ∀ e ∈ readSecrets c keyring field key (some value), ∀ text ∈ e.2.toOption, plaintext text = text)
    (h : Rewritten c keyring purpose (secretsIn field value) (secretsIn field next)) :
    readSecrets c keyring field key (some next) = readSecrets c keyring field key (some value) := by
  simp only [readSecrets, hpurpose] at hplain ⊢
  have hcarried : ∀ parsed, parseKeyring keyring = .ok parsed → Carried parsed.current := by
    intro parsed hparsed
    exact hcurrent parsed (by rw [hparsed]; rfl)
  generalize secretsIn field value = secrets at h hplain
  generalize secretsIn field next = later at h
  unfold Rewritten at h
  induction h with
  | nil => rfl
  | @cons a b _ _ hab _ ih =>
    obtain ⟨hname, hre⟩ := hab
    have htext : ∀ text, decryptSecret c a.2 keyring purpose = .ok text → plaintext text = text := by
      intro text htext
      refine hplain _ mem_cons_self text ?_
      change text ∈ (decryptSecret c a.2 keyring purpose).toOption
      rw [htext]
      rfl
    rw [map_cons, map_cons, hname, hre.decrypts hc hcarried htext]
    rw [ih fun e he => hplain e (mem_cons_of_mem _ he)]

def UpdateKeeps (c : WebCrypto) (keyring : Utf16) (field : SecretField) (s : SecretStore)
    (u : SecretRow × Utf16) : Prop :=
  ∀ r ∈ (s.rows field).rows, r.key = u.1.key →
    readSecrets c keyring field r.key (some u.2) = readSecrets c keyring field r.key r.written

theorem rotateSecret_kept {u : SecretRow × Utf16} (hs : ReadsWritten c keyring s)
    (hu : UpdateKeeps c keyring field s u) (h : rotateSecret field u.1.key u.2 n s = .ok (m, t)) :
    ReadsWritten c keyring t ∧ ∀ u', UpdateKeeps c keyring field s u' → UpdateKeeps c keyring field t u' := by
  obtain ⟨table, htable, ht⟩ := setSecret_ok h
  constructor
  · refine readsWritten_update hs ht fun r hr => ?_
    rw [htable, mem_map] at hr
    obtain ⟨old, hold, rfl⟩ := hr
    split
    · next hkey =>
      rw [Bool.and_true, beq_iff_eq] at hkey
      exact Or.inr (hu old hold hkey)
    · exact Or.inl hold
  · intro u' hu' r hr hkey
    rw [ht, Function.update_self, htable, mem_map] at hr
    obtain ⟨old, hold, rfl⟩ := hr
    have hsame : ∀ q : Bool, (if q then { old with value := some u.2 } else old).key = old.key ∧
        (if q then { old with value := some u.2 } else old).written = old.written := by
      intro q
      cases q <;> exact ⟨rfl, rfl⟩
    rw [(hsame _).1] at hkey ⊢
    rw [(hsame _).2]
    exact hu' old hold hkey

theorem rotate_kept {updates : List (SecretRow × Utf16)} {ns : List Nat} (hs : ReadsWritten c keyring s)
    (hu : ∀ u ∈ updates, UpdateKeeps c keyring field s u)
    (h : batch (updates.map fun u => rotateSecret field u.1.key u.2) n s = .ok (ns, t)) :
    ReadsWritten c keyring t := by
  induction updates generalizing n s ns with
  | nil =>
    simp only [map_nil, batch_nil, Except.ok.injEq, Prod.mk.injEq] at h
    exact h.2 ▸ hs
  | cons u updates ih =>
    obtain ⟨m, mid, ns', hone, hrest, -⟩ := batch_cons_ok h
    obtain ⟨hmid, hkeep⟩ := rotateSecret_kept hs (hu u mem_cons_self) hone
    exact ih hmid (fun u' hu' => hkeep u' (hu u' (mem_cons_of_mem _ hu'))) hrest

/-! ## The calls -/

/-- The columns as the calls see them; a call may rely on nothing of what it has read. -/
def secretSpec (c : WebCrypto) (keyring : Utf16) : Spec SecretStore SecretSite Empty :=
  .ofRel (ReadsWritten c keyring) (rotationKeeps c keyring) (fun _ _ => True) (fun _ _ => True)
    (fun _ => trivial) (fun _ => trivial) fun _ _ _ _ _ => trivial

theorem admits_secret (h : ReadsWritten c keyring t) : (secretSpec c keyring).Admits ∅ ∅ s t :=
  Spec.admits_ofRel h trivial fun _ => trivial

theorem stage_bare (hc : c.RoundTrips) {st : RotationStage} (hst : st.ForReaders) (s : SecretStore) :
    Bare (secretSpec c keyring) (st.run c keyring ivs) s := by
  refine query fun t _ ht => ?_
  cases hrows : rewriteRows (st.rewrite c keyring ivs) (st.page t) with
  | error e => exact throw e
  | ok updates =>
    change Bare _ (RotationStage.write st.field updates) t
    cases hup : updates with
    | nil => exact done 0
    | cons first rest =>
      rw [← hup]
      have hwrite : RotationStage.write st.field updates = (commit (.rotate st.field updates)
          (updates.map fun u => rotateSecret st.field u.1.key u.2) >>= fun ns => .done ns.sum) := by
        rw [hup]
        rfl
      rw [hwrite]
      refine bind (commit fun v _ hv hcond ns w hb => admits_secret ?_) fun _ _ _ => done _
      obtain ⟨hstock, hcurrent, hsince⟩ := hcond
      refine rotate_kept hv (fun u hu r hr hkey => ?_) hb
      obtain ⟨hsame, hplain⟩ := hsince u hu
      obtain ⟨hpage, hrun⟩ := (rewriteRows_mem hrows u).mp hu
      obtain ⟨hread, hsel⟩ := RotationStage.page_mem hpage
      obtain ⟨value, purpose, hvalue, hp, -, hre⟩ := RotationStage.rewrite_some hrun
      have hpurpose := (hst u.1 purpose hsel hp).resolve_left hstock
      rw [hvalue] at hplain
      rw [hkey, hsame r hr hkey, ← ht st.field u.1 hread, hvalue]
      exact readSecrets_rewritten hc hpurpose hcurrent hplain hre

theorem runStages_bare (hc : c.RoundTrips) {stages : List RotationStage}
    (hstages : ∀ st ∈ stages, st.ForReaders) (s : SecretStore) :
    Bare (secretSpec c keyring) (runStages c keyring ivs stages) s := by
  induction stages generalizing s with
  | nil => exact done 0
  | cons st stages ih =>
    refine bind (stage_bare hc (hstages st mem_cons_self) s) fun n t _ => ?_
    refine bind (ih (fun st' hst' => hstages st' (mem_cons_of_mem _ hst')) t) fun rest u _ => ?_
    exact done _

theorem progressivelyReencryptSecrets_bare (hc : c.RoundTrips)
    (ivs : SecretField → String → Utf16 → Vector UInt8 12) (limit : Nat) (s : SecretStore) :
    Bare (secretSpec c keyring) (progressivelyReencryptSecrets c keyring ivs limit) s := by
  unfold progressivelyReencryptSecrets
  split
  · exact done 0
  refine bind (runStages_bare hc (settingStages_forReaders limit) s) fun rewritten t _ => ?_
  cases parseKeyring keyring with
  | error e => exact throw e
  | ok parsed =>
    refine bind (runStages_bare hc (columnStages_forReaders limit parsed.current) t) fun columns u _ => ?_
    exact done _

theorem secretOperation_bare (decide : SecretStore → List SecretWrite) (s : SecretStore) :
    Bare (secretSpec c keyring) (secretOperation decide) s := by
  refine query fun t _ _ => ?_
  refine bind (commit fun u _ hu _ ns v hb => admits_secret ?_) fun _ _ _ => done ()
  refine batch_within (R := fun s t => ReadsWritten c keyring s → ReadsWritten c keyring t) (fun _ h => h)
    (fun _ _ _ hab hbc h => hbc (hab h)) ?_ hb hu
  intro st hst
  obtain ⟨w, -, hw⟩ := mem_flatMap.mp hst
  exact readsWritten_write w st hw

theorem secretCode_bare (hc : c.RoundTrips) (call : SecretCall) (s : SecretStore) :
    Bare (secretSpec c keyring) (secretCode c keyring call) s := by
  cases call with
  | rotation ivs limit => exact void (progressivelyReencryptSecrets_bare hc ivs limit s)
  | operation decide => exact secretOperation_bare decide s
  | savePaymentChannel id credential => exact secretOperation_bare _ s
  | resolveProviderSecret id envelope => exact secretOperation_bare _ s
  | replaceDeliveredContent id encrypted => exact secretOperation_bare _ s
  | prepareCustomerDataDeletion items values => exact secretOperation_bare _ s

/-- A row reads as what an operation wrote to it last, however rotations and operations interleave, as long
as no operation writes a row that a rotation has read and not yet written. -/
theorem rotation_keeps_writes (hc : c.RoundTrips) (keyring : Utf16) {s : SecretStore}
    (hs : ∀ field, ∀ r ∈ (s.rows field).rows, r.written = r.value) {w : World SecretStore SecretSite SecretError Unit}
    (hrun : Runs (secretCode c keyring) (rotationKeeps c keyring) ⟨s, []⟩ w) :
    ∀ field, ∀ r ∈ (w.db.rows field).rows,
      readSecrets c keyring field r.key r.value = readSecrets c keyring field r.key r.written := by
  have hstart : ReadsWritten c keyring s := fun field r hr => by rw [hs field r hr]
  exact (Runs.sound (S := secretSpec c keyring)
    (fun call t _ => (secretCode_bare hc call t).ok) hrun (good_idle _ hstart)).1.1

/-! ## Two runs -/

def rawKeyring : Utf16 := ascii "secret-key-0123456789"

def paymentEnvelope (text : String) : Option Utf16 :=
  (encryptSecret openCrypto (ascii text) rawKeyring SecretColumn.paymentChannels.purpose
    (Vector.replicate 12 1)).toOption

/-- A payment channel whose credential is in the form without a key id. -/
def oldChannel : SecretStore where
  rows field := if field = .column .paymentChannels then
      let value := some (legacyEnvelope openCrypto (ascii "old") rawKeyring (Vector.replicate 12 0))
      Table.of [⟨"c1", value, false, none, value⟩] ⟨List.pairwise_singleton .., fun _ _ => rfl⟩
    else .empty
  capacity := .empty

theorem oldChannel_written : ∀ field, ∀ r ∈ (oldChannel.rows field).rows, r.written = r.value := by
  intro field r hr
  unfold oldChannel at hr
  dsimp only at hr
  split at hr
  · rw [mem_singleton.mp hr]
  · cases hr

/-- The page of the payment channels is the twelfth read of a rotation. -/
def rotationReads : List (Move SecretCall) :=
  .start (.rotation (fun _ _ _ => Vector.replicate 12 2) 10) :: List.replicate 12 (.run 0)

theorem rotation_keeps_writes_channel : ∃ w : World SecretStore SecretSite SecretError Unit,
    Runs (secretCode openCrypto rawKeyring) (rotationKeeps openCrypto rawKeyring) ⟨oldChannel, []⟩ w ∧
      (∃ r ∈ (w.db.rows (.column .paymentChannels)).rows, r.value ≠ r.written) ∧
      ∀ field, ∀ r ∈ (w.db.rows field).rows, readSecrets openCrypto rawKeyring field r.key r.value =
        readSecrets openCrypto rawKeyring field r.key r.written := by
  obtain ⟨w, hw⟩ : ∃ w, w = World.exec (secretCode openCrypto rawKeyring)
      (rotationKeeps openCrypto rawKeyring) ⟨oldChannel, []⟩ (rotationReads ++ [Move.run 0]) := ⟨_, rfl⟩
  have hrun : Runs (secretCode openCrypto rawKeyring) (rotationKeeps openCrypto rawKeyring) ⟨oldChannel, []⟩ w := by
    rw [hw]
    exact World.exec_runs ..
  refine ⟨w, hrun, ?_, rotation_keeps_writes openCrypto_roundTrips rawKeyring oldChannel_written hrun⟩
  rw [hw]
  decide

/-- A credential saved between the read and the write of a rotation is gone: the old one is back. -/
theorem channel_edit_lost : (∀ field, ∀ r ∈ (oldChannel.rows field).rows, r.written = r.value) ∧
    ∃ w : World SecretStore SecretSite SecretError Unit,
      Runs (secretCode openCrypto rawKeyring) anySite ⟨oldChannel, []⟩ w ∧
      ∃ r ∈ (w.db.rows (.column .paymentChannels)).rows,
        readSecrets openCrypto rawKeyring (.column .paymentChannels) r.key r.value = [([], .ok (ascii "old"))] ∧
        readSecrets openCrypto rawKeyring (.column .paymentChannels) r.key r.written = [([], .ok (ascii "new"))] := by
  obtain ⟨w, hw⟩ : ∃ w, w = World.exec (secretCode openCrypto rawKeyring) anySite ⟨oldChannel, []⟩
      (rotationReads ++ [Move.start (.savePaymentChannel "c1" (paymentEnvelope "new")), Move.run 1, Move.run 1, Move.run 0]) :=
    ⟨_, rfl⟩
  refine ⟨oldChannel_written, w, ?_, ?_⟩
  · rw [hw]
    exact World.exec_runs ..
  · rw [hw]
    set_option maxRecDepth 50000 in decide

end Gmshop
