import GmshopEdge.Secrets.Rounds

/-!
# Every secret is reached

A stale row of a migratable store is on the page of its stage, or another stale row of its column is, so that
each call leaves fewer stale rows in a column that has some (`Ready.progress`). In the other direction, a
secret that comes under the current key has been rewritten by a stage, whose conditions hold from the first
store on (`Migrates.migratable`).
-/

namespace Gmshop

open List hiding Vector
open Sql Utf16 Prog

variable {c : WebCrypto} {keyringValue : Utf16} {keyring : SecretKeyring} {limit : Nat}
  {ivs : SecretField → String → Utf16 → Vector UInt8 12}

/-! ## LIKE -/

theorem codePoints_dot (front back : Utf16) :
    codePoints (front ++ unit '.' :: back) = codePoints front ++ '.'.toNat :: codePoints back := by
  have hdot : ∀ back : Utf16, codePoints (unit '.' :: back) = '.'.toNat :: codePoints back := by
    intro back
    cases back with
    | nil => rfl
    | cons v rest => exact if_neg (by simp [Json.isHighSurrogate, unit])
  fun_induction codePoints front with
  | case1 => exact hdot back
  | case2 u =>
    rw [singleton_append, codePoints, if_neg, hdot]
    · rfl
    · rw [Bool.and_eq_true]
      exact fun h => absurd h.2 (by decide)
  | case3 u v rest hpair ih => rw [cons_append, cons_append, codePoints, if_pos hpair, ih, cons_append]
  | case4 u v rest hpair ih => rw [cons_append, cons_append, codePoints, if_neg hpair,
      ← cons_append, ih, cons_append]

theorem likeCurrent_of_current {envelope : Utf16} (h : UnderCurrentKey keyring envelope) :
    likeCurrent keyring.current envelope = true := by
  obtain ⟨hlength, hversion, hcurrent⟩ := h
  have hparts : ∃ iv encrypted, envelope.splitOn (unit '.') = [envelopeVersion, keyring.current, iv, encrypted] := by
    match hsplit : envelope.splitOn (unit '.'), hlength, hversion, hcurrent with
    | [a, b, iv, encrypted], _, hversion, hcurrent =>
      obtain rfl : a = envelopeVersion := by simpa using hversion
      obtain rfl : b = keyring.current := by simpa using hcurrent
      exact ⟨iv, encrypted, rfl⟩
  obtain ⟨iv, encrypted, hsplit⟩ := hparts
  have henvelope : envelope = (envelopeVersion ++ unit '.' :: keyring.current) ++
      unit '.' :: (iv ++ unit '.' :: encrypted) := by
    have hjoin : [unit '.'].intercalate (envelope.splitOn (unit '.')) = envelope := intercalate_splitOn _
    rw [hsplit] at hjoin
    rw [← hjoin]
    simp [intercalate]
  have hprefix : envelopePrefix keyring.current = (envelopeVersion ++ unit '.' :: keyring.current) ++ [unit '.'] := rfl
  generalize envelopeVersion ++ unit '.' :: keyring.current = front at henvelope hprefix
  rw [likeCurrent, likeText, hprefix, henvelope, codePoints_dot front [], codePoints_dot front]
  have hlike : like foldCase (Wild.pattern '%'.toNat '_'.toNat (codePoints front ++ ['.'.toNat] ++ ['%'.toNat]))
      (codePoints front ++ ['.'.toNat] ++ codePoints (iv ++ unit '.' :: encrypted)) = true := like_prefix _ _ _ _
  rw [append_assoc (codePoints front) ['.'.toNat] (codePoints _)] at hlike
  exact hlike

/-! ## Stages that reach a row -/

variable {r : SecretRow} {s t : SecretStore} {st : RotationStage} {key : String} {field : SecretField}
  {stages : List RotationStage} {n : Nat}

theorem mem_page (hr : r ∈ (s.rows st.field).rows) (hsel : st.selects r = true) (hlimit : 0 < st.limit) :
    ∃ r' ∈ st.page s, st.selects r' = true := by
  have hmem : r ∈ ((s.rows st.field).rows.filter st.selects).insertionSort fun a b => a.key ≤ b.key :=
    (mem_insertionSort _).mpr (mem_filter.mpr ⟨hr, hsel⟩)
  obtain ⟨x, xs, hxs⟩ := exists_cons_of_ne_nil (ne_nil_of_mem hmem)
  obtain ⟨k, hk⟩ := Nat.exists_eq_add_of_lt hlimit
  have hx : x ∈ st.page s := by
    unfold RotationStage.page
    rw [hxs, hk, Nat.zero_add, take_succ_cons]
    exact mem_cons_self
  exact ⟨x, hx, (RotationStage.page_mem hx).2⟩

theorem mem_page_key (hkey : ∀ x, st.selects x = true → x.key = key) (hr : r ∈ (s.rows st.field).rows)
    (hsel : st.selects r = true) (hlimit : 0 < st.limit) : r ∈ st.page s := by
  obtain ⟨x, hx, hselx⟩ := mem_page hr hsel hlimit
  rwa [← SecretStore.row_unique (RotationStage.page_mem hx).1 hr ((hkey x hselx).trans (hkey r hsel).symm)]

theorem specOf (column : SecretColumn) : ∃ spec ∈ secretSpecs, spec.column = column := by
  cases column <;> simp [secretSpecs]

variable (c keyringValue keyring) in
/-- A covered key has a stage that takes a stale row of its column as long as the row is stale. -/
theorem reaching (hlimit : 0 < limit) {reader : Utf16} (hreader : secretPurpose field key = some reader) :
    ∃ st ∈ allStages limit keyring.current, st.field = field ∧ ∀ s r, Ready c keyringValue limit keyring s →
      r ∈ (s.rows field).rows → r.key = key → staleRow keyring field r = true →
        ∃ r' ∈ st.page s, staleRow keyring field r' = true ∧ st.purpose r'.key ≠ none := by
  have hmovable : ∀ s r, Ready c keyringValue limit keyring s → r ∈ (s.rows field).rows → r.key = key →
      staleRow keyring field r = true → Reached limit keyring.current s field r ∧
        (field = .settings → r.isSecret = true) ∧ ∃ value, r.value = some value := by
    intro s r hs hr hkey hstale
    obtain ⟨purpose, value, hpurpose, hv, e, he, hnot⟩ := staleRow_iff.mp hstale
    exact ⟨(hs.migratable field r hr purpose value hpurpose hv e he hnot).reached,
      (hs.written field r hr purpose hpurpose).1, value, hv⟩
  cases field with
  | column column =>
    obtain ⟨spec, hspec, hcolumn⟩ := specOf column
    refine ⟨reencryptColumn limit keyring.current spec, List.mem_append_right _ (List.mem_map_of_mem hspec),
      congrArg SecretField.column hcolumn, fun s r hs hr hkey hstale => ?_⟩
    obtain ⟨hreached, -, value, hv⟩ := hmovable s r hs hr hkey hstale
    have hsel : (reencryptColumn limit keyring.current spec).selects r = true := by
      simp [reencryptColumn, hv, hreached value hv]
    have hfield : (reencryptColumn limit keyring.current spec).field = .column column :=
      congrArg SecretField.column hcolumn
    obtain ⟨r', hr', hsel'⟩ := mem_page (by rw [hfield]; exact hr) hsel hlimit
    refine ⟨r', hr', ?_, Option.some_ne_none _⟩
    obtain ⟨value', hv', hlike⟩ := (Option.any_eq_true _ _).mp hsel'
    refine staleRow_iff.mpr ⟨_, value', rfl, hv', ([], value'), List.mem_cons_self, fun hcurrent => ?_⟩
    rw [likeCurrent_of_current hcurrent] at hlike
    cases hlike
  | orderInputs =>
    refine ⟨reencryptJsonSecretMap limit .orderInputs (ascii "order-input"), List.mem_append_left _ ?_, rfl,
      fun s r hs hr hkey hstale => ⟨r, (hmovable s r hs hr hkey hstale).1, hstale, Option.some_ne_none _⟩⟩
    exact .tail _ (.tail _ (.tail _ (.tail _ (.head _))))
  | jobInputs =>
    refine ⟨reencryptJsonSecretMap limit .jobInputs (ascii "build-input"), List.mem_append_left _ ?_, rfl,
      fun s r hs hr hkey hstale => ⟨r, (hmovable s r hs hr hkey hstale).1, hstale, Option.some_ne_none _⟩⟩
    exact .tail _ (.tail _ (.tail _ (.tail _ (.tail _ (.head _)))))
  | settings =>
    change settingPurpose key = some reader at hreader
    unfold settingPurpose at hreader
    split at hreader
    · next hexchange =>
      refine ⟨reencryptExchangeRateCredential, List.mem_append_left _ (.head _), rfl,
        fun s r hs hr hkey hstale => ⟨r, ?_, hstale, Option.some_ne_none _⟩⟩
      exact mem_page_key (fun x hx => beq_iff_eq.mp hx) hr (beq_iff_eq.mpr (hkey.trans hexchange)) Nat.one_pos
    split at hreader
    · next hfeishu =>
      refine ⟨reencryptSettingSecret feishuAppSecretKey feishuAppSecretPurpose,
        List.mem_append_left _ (.tail _ (.tail _ (.head _))), rfl,
        fun s r hs hr hkey hstale => ⟨r, ?_, hstale, Option.some_ne_none _⟩⟩
      have hsecret := (hmovable s r hs hr hkey hstale).2.1 rfl
      refine mem_page_key (fun x hx => beq_iff_eq.mp (Bool.and_eq_true_iff.mp hx).1) hr ?_ Nat.one_pos
      exact Bool.and_eq_true_iff.mpr ⟨beq_iff_eq.mpr (hkey.trans hfeishu), hsecret⟩
    split at hreader
    · next htelegram =>
      refine ⟨reencryptSettingSecret telegramOwnerAlertBotTokenKey telegramOwnerAlertBotTokenPurpose,
        List.mem_append_left _ (.tail _ (.tail _ (.tail _ (.head _)))), rfl,
        fun s r hs hr hkey hstale => ⟨r, ?_, hstale, Option.some_ne_none _⟩⟩
      have hsecret := (hmovable s r hs hr hkey hstale).2.1 rfl
      refine mem_page_key (fun x hx => beq_iff_eq.mp (Bool.and_eq_true_iff.mp hx).1) hr ?_ Nat.one_pos
      exact Bool.and_eq_true_iff.mpr ⟨beq_iff_eq.mpr (hkey.trans htelegram), hsecret⟩
    · obtain ⟨id, hid, -⟩ := Option.map_eq_some_iff.mp hreader
      refine ⟨reencryptAuthProviderSecrets limit, List.mem_append_left _ (.tail _ (.head _)), rfl,
        fun s r hs hr hkey hstale => ⟨r, ?_, hstale, ?_⟩⟩
      · refine (hmovable s r hs hr hkey hstale).1 ?_
        rw [hkey, hid]
        exact Option.some_ne_none id
      · change (authProviderId r.key).map authProviderSecretPurpose ≠ none
        rw [hkey, hid]
        exact Option.some_ne_none _

/-! ## A call -/

variable (c keyringValue ivs) in
def StagesRan : List RotationStage → SecretStore → SecretStore → Prop
  | [], s, t => s = t
  | st :: stages, s, t => ∃ m, StageRan c keyringValue ivs st s m ∧ StagesRan stages m t

theorem stagesRan_append {stages' : List RotationStage} {u : SecretStore}
    (h : StagesRan c keyringValue ivs stages s t) (h' : StagesRan c keyringValue ivs stages' t u) :
    StagesRan c keyringValue ivs (stages ++ stages') s u := by
  induction stages generalizing s with
  | nil =>
    obtain rfl : s = t := h
    exact h'
  | cons st stages ih =>
    obtain ⟨m, hm, hrest⟩ := h
    exact ⟨m, hm, ih hrest⟩

theorem stagesRan_of_alone (h : (runStages c keyringValue ivs stages).alone s = (.ok n, t)) :
    StagesRan c keyringValue ivs stages s t := by
  induction stages generalizing s n with
  | nil =>
    simp only [runStages, alone, Prod.mk.injEq] at h
    exact h.2
  | cons st stages ih =>
    obtain ⟨k, m, hstage, hrest⟩ := alone_bind_ok h
    obtain ⟨k', m', hrest, hdone⟩ := alone_bind_ok hrest
    simp only [alone, Prod.mk.injEq] at hdone
    rw [hdone.2] at hrest
    exact ⟨m, stageRan_of_alone hstage, ih hrest⟩

theorem keyringValue_ne_nil (hk : parseKeyring keyringValue = .ok keyring) : keyringValue ≠ [] := by
  rintro rfl
  cases hk

theorem stagesRan_of_call (hk : parseKeyring keyringValue = .ok keyring)
    (h : (progressivelyReencryptSecrets c keyringValue ivs limit).alone s = (.ok n, t)) :
    StagesRan c keyringValue ivs (allStages limit keyring.current) s t := by
  rw [progressivelyReencryptSecrets, if_neg (keyringValue_ne_nil hk)] at h
  obtain ⟨k, m, hsettings, hcolumns⟩ := alone_bind_ok h
  rw [hk] at hcolumns
  obtain ⟨k', m', hcolumns, hdone⟩ := alone_bind_ok hcolumns
  simp only [alone, Prod.mk.injEq] at hdone
  rw [hdone.2] at hcolumns
  exact stagesRan_append (stagesRan_of_alone hsettings) (stagesRan_of_alone hcolumns)

variable (ivs) in
theorem Ready.runStages (hc : c.RoundTrips) (hk : parseKeyring keyringValue = .ok keyring)
    (hstages : ∀ st ∈ stages, st ∈ allStages limit keyring.current)
    (hs : Ready c keyringValue limit keyring s) :
    ∃ n t, (Gmshop.runStages c keyringValue ivs stages).alone s = (.ok n, t) ∧
      Ready c keyringValue limit keyring t := by
  induction stages generalizing s with
  | nil => exact ⟨0, s, rfl, hs⟩
  | cons st stages ih =>
    have hst := hstages st List.mem_cons_self
    obtain ⟨updates, hupdates⟩ := rewriteRows_total (hs.rewritable ivs hc hk hst)
    obtain ⟨k, m, hstage, hran⟩ := stage_alone hupdates
    obtain ⟨k', t, hrest, ht⟩ := ih (fun st' hst' => hstages st' (List.mem_cons_of_mem _ hst'))
      (hs.stage hc hk hst hran).1
    refine ⟨k + k', t, ?_, ht⟩
    rw [Gmshop.runStages, Prog.alone_bind hstage, Prog.alone_bind hrest]
    rfl

variable (ivs) in
theorem Ready.call (hc : c.RoundTrips) (hk : parseKeyring keyringValue = .ok keyring)
    (hs : Ready c keyringValue limit keyring s) :
    ∃ n t, (progressivelyReencryptSecrets c keyringValue ivs limit).alone s = (.ok n, t) := by
  obtain ⟨k, m, hsettings, hm⟩ := hs.runStages ivs hc hk fun st hst => List.mem_append_left _ hst
  obtain ⟨k', t, hcolumns, -⟩ := hm.runStages ivs hc hk fun st hst => List.mem_append_right _ hst
  refine ⟨k + k', t, ?_⟩
  rw [progressivelyReencryptSecrets, if_neg (keyringValue_ne_nil hk), Prog.alone_bind hsettings, hk]
  exact Prog.alone_bind hcolumns

theorem Ready.stagesRan (hc : c.RoundTrips) (hk : parseKeyring keyringValue = .ok keyring)
    (hstages : ∀ st ∈ stages, st ∈ allStages limit keyring.current)
    (hs : Ready c keyringValue limit keyring s) (h : StagesRan c keyringValue ivs stages s t) :
    Ready c keyringValue limit keyring t ∧ Steps c keyringValue keyring s t ∧ ∀ st ∈ stages, ∃ m m',
      Steps c keyringValue keyring s m ∧ Ready c keyringValue limit keyring m ∧
        StageRan c keyringValue ivs st m m' ∧ Steps c keyringValue keyring m' t := by
  induction stages generalizing s with
  | nil =>
    obtain rfl : s = t := h
    exact ⟨hs, .refl s, fun st hst => nomatch hst⟩
  | cons st stages ih =>
    obtain ⟨m, hran, hrest⟩ := h
    obtain ⟨hm, hsteps⟩ := hs.stage hc hk (hstages st mem_cons_self) hran
    obtain ⟨ht, hsteps', heach⟩ := ih (fun st' hst' => hstages st' (mem_cons_of_mem _ hst')) hm hrest
    refine ⟨ht, hsteps.trans hsteps', fun st' hst' => ?_⟩
    rcases mem_cons.mp hst' with rfl | hst'
    · exact ⟨s, m, .refl s, hs, hran, hsteps'⟩
    · obtain ⟨m₁, m₂, h₁, hready, hran', h₂⟩ := heach st' hst'
      exact ⟨m₁, m₂, hsteps.trans h₁, hready, hran', h₂⟩

/-! ## Fewer stale rows -/

def staleCount (keyring : SecretKeyring) (field : SecretField) (s : SecretStore) : Nat :=
  (s.rows field).rows.countP (staleRow keyring field)

theorem fresher_count {xs ys : List SecretRow} (h : List.Forall₂ (Fresher keyring field) xs ys) :
    ys.countP (staleRow keyring field) < xs.countP (staleRow keyring field) ∨
      (ys.countP (staleRow keyring field) = xs.countP (staleRow keyring field) ∧
        List.Forall₂ (fun x y => y.key = x.key ∧ staleRow keyring field y = staleRow keyring field x) xs ys) := by
  induction h with
  | nil => exact Or.inr ⟨rfl, .nil⟩
  | @cons x y xs ys hxy _ ih =>
    have hmono : staleRow keyring field y = true → staleRow keyring field x = true := by
      intro hstale
      rwa [hxy.2 hstale] at hstale
    rw [countP_cons, countP_cons]
    cases hy : staleRow keyring field y with
    | true =>
      rw [hmono hy]
      rcases ih with hlt | ⟨heq, hrest⟩
      · exact Or.inl (by simpa using hlt)
      · exact Or.inr ⟨by rw [heq], .cons ⟨hxy.1, by rw [hy, hmono hy]⟩ hrest⟩
    | false =>
      cases hx : staleRow keyring field x with
      | true =>
        left
        rcases ih with hlt | ⟨heq, -⟩
        · simp
          omega
        · simp [heq]
      | false =>
        rcases ih with hlt | ⟨heq, hrest⟩
        · exact Or.inl (by simpa using hlt)
        · exact Or.inr ⟨by simpa using heq, .cons ⟨hxy.1, by rw [hy, hx]⟩ hrest⟩

theorem Ready.progress (hc : c.RoundTrips) (hk : parseKeyring keyringValue = .ok keyring) (hlimit : 0 < limit)
    (hs : Ready c keyringValue limit keyring s)
    (h : StagesRan c keyringValue ivs (allStages limit keyring.current) s t) (field : SecretField) :
    staleCount keyring field t < staleCount keyring field s ∨ staleCount keyring field t = 0 := by
  obtain ⟨-, hsteps, heach⟩ := hs.stagesRan hc hk (fun _ h => h) h
  rcases fresher_count (hsteps.fresher field) with hlt | ⟨-, hsame⟩
  · exact Or.inl hlt
  refine Or.inr (countP_eq_zero.mpr fun r' hr' hstale => ?_)
  obtain ⟨r, hr, hkey, heq⟩ := forall₂_right hsame r' hr'
  rw [hstale] at heq
  obtain ⟨reader, value, hreader, -⟩ := staleRow_iff.mp heq.symm
  obtain ⟨st, hst, rfl, hreach⟩ := reaching c keyringValue keyring hlimit hreader
  obtain ⟨m, m', hbefore, hready, hran, hafter⟩ := heach st hst
  -- a row that is stale in the end is stale all along
  obtain ⟨rₘ', hrₘ', hfresh'⟩ := forall₂_right (hafter.fresher st.field) r' hr'
  have hsame' := hfresh'.2 hstale
  have hfreshStage := (hready.stage hc hk hst hran).2.fresher
  obtain ⟨rₘ, hrₘ, hfresh⟩ := forall₂_right (hfreshStage st.field) rₘ' hrₘ'
  have hstaleₘ : staleRow keyring st.field rₘ = true := by
    rw [← hfresh.2 (by rw [← hsame']; exact hstale), ← hsame']
    exact hstale
  have hkeyₘ : rₘ.key = r.key := hfresh.1.symm.trans (hfresh'.1.symm.trans hkey)
  obtain ⟨x, hx, hstalex, hpurpose⟩ := hreach m rₘ hready hrₘ hkeyₘ hstaleₘ
  -- the row on the page was stale at first and is not in the end
  obtain ⟨x₀, hx₀, hfreshx⟩ := forall₂_right (hbefore.fresher st.field) x (RotationStage.page_mem hx).1
  have hstale₀ : staleRow keyring st.field x₀ = true := by
    rw [← hfreshx.2 hstalex]
    exact hstalex
  obtain ⟨y, hy, hkeyy, hstaley⟩ := forall₂_left hsame x₀ hx₀
  rw [hstale₀] at hstaley
  obtain ⟨y', hy', hfreshy⟩ := forall₂_right (hafter.fresher st.field) y hy
  have hnot := hready.page_current hc hk hst hran hx hpurpose hy' (hfreshy.1.symm.trans (hkeyy.trans hfreshx.1.symm))
  rw [← hfreshy.2 hstaley, hstaley] at hnot
  cases hnot

end Gmshop
