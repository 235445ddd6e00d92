import VT7.KnownHosts.Frame
import VT7.KnownHosts.Removal

/-!
# What a successful call has replaced

The invariants of the two machines under arbitrary changes by other programs.  Three checks stand
between the reviewed snapshot and a successful return: the identity of the fresh load makes it the
reviewed one, the hash of the open file makes its content the reviewed content, and the hash of the
backup makes what `File.Replace` has replaced the content that was open.
-/

namespace VT7.KnownHosts

open VT7.Dotnet VT7.Lib

namespace AddCall

variable {P : Platform} (call : AddCall P)

/-- The file with the record added. -/
def extended (content : Bytes) : Bytes := content ++ buildAddition content call.hostToken call.presented

/-- The call has written the reviewed content with the record added, over the reviewed content. -/
def Wrote (entries : Disk) (written : Option (DiskEntry × DiskEntry)) (content : Bytes) : Prop :=
  Content (entries 0) content ∧ ∃ before after,
    written = some (.file content before, .file (call.extended content) after)

/-- What a call that returns has done, with what it read back. -/
def Committed (entries : Disk) (written : Option (DiskEntry × DiskEntry))
    (verified : KnownHostsStoreSnapshot) : Prop :=
  ∃ content, call.Wrote entries written content ∧ ∃ definition lastWriteUtc,
    call.definitions.head? = some definition ∧ verified.sources.head? =
      some (createSourceSnapshot P definition (call.extended content) lastWriteUtc)

/-- The invariant. -/
def SafeInv (entries : Disk) (s : AddState) : Prop :=
  match s.pc with
  | .checking | .waiting => s.disk 0 = s.untouched ∧ s.written = none
  | .loading loaded =>
    s.disk 0 = s.untouched ∧ s.written = none ∧ Loaded P call.definitions loaded
  | .preparing fresh | .probing fresh | .opening fresh _ | .holding fresh _ =>
    fresh = call.discoverySnapshot
  | .writing _ content addition => Content (entries 0) content ∧
      addition = buildAddition content call.hostToken call.presented ∧
      ∃ lastWriteUtc, s.disk 0 = .file content lastWriteUtc
  | .verifying _ _ hash loaded => Loaded P call.definitions loaded ∧
      ∃ content, call.Wrote entries s.written content ∧ hash = hex (P.sha256 (call.extended content))
  | .returned verified => call.Committed entries s.written verified
  | .threw _ => True

variable {call}

/-- The checks on the open file have seen the reviewed content. -/
theorem content_of_planAddition (hP : P.CollisionFree) {entries : Disk} {faults : ℕ → Option LoadFault}
    (hreviewed : LoadedFrom P entries faults call.discoverySnapshot) {existed : Bool}
    {content addition : Bytes} {lastWriteUtc : ℕ}
    (h : call.planAddition call.discoverySnapshot existed content lastWriteUtc = .ok addition) :
    Content (entries 0) content ∧
      addition = buildAddition content call.hostToken call.presented := by
  obtain ⟨first, others, hsources, -, hmatches, -, haddition, -⟩ := planAddition_ok h
  refine ⟨?_, haddition⟩
  rw [hreviewed.head hsources, loadSource_definition] at hmatches
  rcases content_of_primaryMatches hP hmatches with hfile | ⟨hmissing, hempty, -⟩
  · exact .inl hfile
  · exact .inr ⟨hmissing, hempty⟩

/-- The read-back has seen the extended file. -/
theorem committed_of_readBack (hP : P.CollisionFree) {entries : Disk}
    {written : Option (DiskEntry × DiskEntry)} {content : Bytes} {fresh verified : KnownHostsStoreSnapshot}
    {loaded : List KnownHostsSourceSnapshot} {length : ℕ}
    (hloaded : Loaded P call.definitions loaded) (hwrote : call.Wrote entries written content)
    (h : call.readBack fresh ⟨loaded⟩ length (hex (P.sha256 (call.extended content))) = .ok verified) :
    call.Committed entries written verified := by
  obtain ⟨rfl, first, others, hsources, -, -, -, hhash, -⟩ := readBack_iff.mp h
  obtain rfl : loaded = first :: others := hsources
  obtain ⟨definition, entry, fault, hdefinition, rfl, -⟩ := hloaded 0 first rfl
  obtain ⟨lastWriteUtc, -, hload⟩ := file_of_contentHash hP hhash
  refine ⟨content, hwrote, definition, lastWriteUtc, ?_, ?_⟩
  · rw [List.head?_eq_getElem?, hdefinition]
  · rw [← hload]
    rfl

/-- **The step lemma.** -/
theorem safeInv_step (hP : P.CollisionFree) {entries : Disk} {faults : ℕ → Option LoadFault}
    (hreviewed : LoadedFrom P entries faults call.discoverySnapshot) (s : AddState) (event : AddEvent)
    (s' : AddState) (hstep : call.step s event = some s') (h : call.SafeInv entries s) :
    call.SafeInv entries s' := by
  have hmoves := call.moves_of_step hstep
  cases hmoves with
  | @external number entry free =>
    unfold SafeInv at h ⊢
    cases hpc : s.pc with
    | checking | waiting | loading =>
      rw [hpc] at h
      exact ⟨update_zero_eq h.1 number entry, h.2⟩
    | writing fresh content addition =>
      rw [hpc] at h free
      obtain ⟨hcontent, haddition, time, hdisk⟩ := h
      exact ⟨hcontent, haddition, time, (Function.update_of_ne (Ne.symm (free rfl)) ..).trans hdisk⟩
    | threw category => trivial
    | _ => simpa only [hpc] using h
  | load pc next =>
    simp only [SafeInv, pc] at h ⊢
    exact ⟨h.1, h.2.1, h.2.2.append next trivial _⟩
  | reload pc next =>
    simp only [SafeInv, pc] at h ⊢
    exact ⟨h.1.append next trivial _, h.2⟩
  | fail | failWriteNone | failWriteSome | refuse | stale | reject | unverified => trivial
  | accept pc | prepare pc | probe pc | openFile pc | createFile pc =>
    simp only [SafeInv, pc] at h ⊢
    exact h
  | acquire pc =>
    simp only [SafeInv, pc] at h ⊢
    exact ⟨h.1, h.2, readAs_nil⟩
  | current pc complete same =>
    simp only [SafeInv, pc] at h ⊢
    refine snapshot_eq_of_identity hP h.2.2 hreviewed.loaded complete ?_ same
    rw [definitions, List.length_map]
  | @plan lastWriteUtc fresh existed content time addition pc file good =>
    simp only [SafeInv, pc] at h ⊢
    subst h
    obtain ⟨hcontent, haddition⟩ := content_of_planAddition hP hreviewed good
    exact ⟨hcontent, haddition, time, file⟩
  | @write lastWriteUtc fresh content addition pc =>
    simp only [SafeInv, pc] at h ⊢
    obtain ⟨hcontent, rfl, time, hdisk⟩ := h
    exact ⟨readAs_nil, content, ⟨hcontent, time, lastWriteUtc, by rw [← hdisk]; rfl⟩, rfl⟩
  | verify pc complete good =>
    simp only [SafeInv, pc] at h ⊢
    obtain ⟨hloaded, content, hwrote, rfl⟩ := h
    exact committed_of_readBack hP hloaded hwrote good

/-! ### A stale call -/

/-- The call has compared its first load with the reviewed snapshot, or is about to. -/
def StaleInv (loaded : List KnownHostsSourceSnapshot) (s : AddState) : Prop :=
  (s.pc = .loading loaded ∨ s.pc = .threw "store-generation-changed") ∧ s.disk 0 = s.untouched ∧
    s.written = none

theorem staleInv_step {loaded : List KnownHostsSourceSnapshot}
    (hcomplete : call.definitions.length ≤ loaded.length)
    (hstale : (⟨loaded⟩ : KnownHostsStoreSnapshot).identity P ≠ call.discoverySnapshot.identity P)
    (s : AddState) (event : AddEvent) (s' : AddState) (hstep : call.step s event = some s')
    (h : StaleInv loaded s) : StaleInv loaded s' := by
  obtain ⟨hpc, hdisk, hwritten⟩ := h
  have hmoves := call.moves_of_step hstep
  cases hmoves with
  | @external number entry free => exact ⟨hpc, update_zero_eq hdisk number entry, hwritten⟩
  | stale pc complete differs => exact ⟨.inr rfl, hdisk, hwritten⟩
  | @load fault loaded' definition pc next =>
    obtain rfl : loaded' = loaded := by simpa [pc] using hpc
    rw [List.getElem?_eq_none_iff.mpr hcomplete] at next
    cases next
  | @fail category possible =>
    rcases hpc with hpc | hpc
    · rw [hpc] at possible
      cases possible
    · rw [hpc] at possible
      cases possible
  | @current _ loaded' pc complete same =>
    obtain rfl : loaded' = loaded := by simpa [pc] using hpc
    exact absurd same hstale
  | _ => simp_all

end AddCall

namespace RemoveCall

variable {P : Platform} (call : RemoveCall P)

/-- The open file has the reviewed content, and the rest of its lines is to be kept. -/
def Selected (entries : Disk) (original retained : Bytes) : Prop :=
  (∃ lastWriteUtc, entries 0 = .file original lastWriteUtc) ∧
    ∃ definition, call.definitions.head? = some definition ∧
      retained = retainedBytes (parse definition.sourceId original) call.selectedLines

/-- What a call that returns has done, with what it read back. -/
def Committed (entries : Disk) (written : Option (DiskEntry × DiskEntry))
    (verified : KnownHostsStoreSnapshot) (original retained : Bytes) : Prop :=
  call.Selected entries original retained ∧
    (∃ before after, written = some (.file original before, .file retained after)) ∧
    ∃ definition lastWriteUtc, call.definitions.head? = some definition ∧
      verified.sources.head? = some (createSourceSnapshot P definition retained lastWriteUtc)

/-- The backup is what the call has replaced. -/
def BackedUp (written : Option (DiskEntry × DiskEntry)) (backup : DiskEntry) : Prop :=
  ∃ after, written = some (backup, after)

/-- The invariant. -/
def SafeInv (entries : Disk) (s : RemoveState) : Prop :=
  match s.pc with
  | .checking | .waiting => s.disk 0 = s.untouched ∧ s.written = none
  | .loading loaded =>
    s.disk 0 = s.untouched ∧ s.written = none ∧ Loaded P call.definitions loaded
  | .preparing fresh | .opening fresh | .holding fresh _ => fresh = call.reviewedSnapshot
  | .building _ original retained | .rechecking _ original retained _
  | .replacing _ original retained => call.Selected entries original retained
  | .verifying _ original retained loaded => call.Selected entries original retained ∧
      Loaded P call.definitions loaded ∧ ∃ after, s.written = some (s.backup, .file retained after)
  | .securing verified original retained => call.Committed entries s.written verified original retained ∧
      BackedUp s.written s.backup
  | .returned verified original retained => call.Committed entries s.written verified original retained
  | .threw _ => True

variable {call}

/-- The checks on the open file have seen the reviewed content. -/
theorem selected_of_select (hP : P.CollisionFree) {entries : Disk} {faults : ℕ → Option LoadFault}
    (hreviewed : LoadedFrom P entries faults call.reviewedSnapshot) {original retained : Bytes}
    {lastWriteUtc : ℕ}
    (h : call.select call.reviewedSnapshot original lastWriteUtc = .ok retained) :
    call.Selected entries original retained := by
  obtain ⟨first, others, hsources, hmatches, hretained⟩ := call.select_ok h
  refine ⟨?_, first.definition, ?_, hretained⟩
  · rw [hreviewed.head hsources, loadSource_definition] at hmatches
    rcases content_of_primaryMatches hP hmatches with hfile | ⟨-, -, hexisted⟩
    · exact hfile
    · cases hexisted
  · rw [definitions, hsources]
    rfl

/-- The read-back has seen the retained lines, and the original in the backup. -/
theorem committed_of_readBack (hP : P.CollisionFree) {entries : Disk}
    {written : Option (DiskEntry × DiskEntry)} {backup : DiskEntry} {after : ℕ}
    {fresh verified : KnownHostsStoreSnapshot} {loaded : List KnownHostsSourceSnapshot}
    {original retained : Bytes} (hselected : call.Selected entries original retained)
    (hloaded : Loaded P call.definitions loaded)
    (hwritten : written = some (backup, .file retained after))
    (h : readBack P fresh ⟨loaded⟩ backup original retained = .ok verified) :
    call.Committed entries written verified original retained ∧ BackedUp written backup := by
  obtain ⟨rfl, ⟨first, others, hsources, -, hhash⟩, content, before, rfl, hsame⟩ :=
    readBack_ok h
  obtain rfl : content = original := hP.injective (hex_inj hsame)
  obtain rfl : loaded = first :: others := hsources
  obtain ⟨definition, entry, fault, hdefinition, rfl, -⟩ := hloaded 0 first rfl
  obtain ⟨lastWriteUtc, -, hload⟩ := file_of_contentHash hP hhash
  refine ⟨⟨hselected, ⟨before, after, hwritten⟩, definition, lastWriteUtc, ?_, ?_⟩, _, hwritten⟩
  · rw [List.head?_eq_getElem?, hdefinition]
  · rw [← hload]
    rfl

/-- A block of checks leads to its next place or to an exception. -/
theorem orThrow_map_cases {α : Type} (result : Except String α) (next : α → RemovePc) :
    (∃ category, RemovePc.orThrow (result.map next) = .threw category) ∨
      ∃ value, result = .ok value ∧ RemovePc.orThrow (result.map next) = next value := by
  cases result with
  | error category => exact .inl ⟨category, rfl⟩
  | ok value => exact .inr ⟨value, rfl, rfl⟩

theorem orThrow_map_returned {α : Type} {result : Except String α} {next : α → RemovePc}
    {verified : KnownHostsStoreSnapshot} {original retained : Bytes}
    (h : RemovePc.orThrow (result.map next) = .returned verified original retained) :
    ∃ value, next value = .returned verified original retained := by
  obtain ⟨category, hnext⟩ | ⟨value, -, hnext⟩ := orThrow_map_cases result next
  · rw [hnext] at h
    cases h
  · exact ⟨value, hnext ▸ h⟩

/-- **The step lemma.** -/
theorem safeInv_step (hP : P.CollisionFree) {entries : Disk} {faults : ℕ → Option LoadFault}
    (hreviewed : LoadedFrom P entries faults call.reviewedSnapshot) (s : RemoveState)
    (event : RemoveEvent) (s' : RemoveState) (hstep : call.step s event = some s')
    (h : call.SafeInv entries s) : call.SafeInv entries s' := by
  have hmoves := call.moves_of_step hstep
  cases hmoves with
  | @external number entry =>
    unfold SafeInv at h ⊢
    cases hpc : s.pc with
    | checking | waiting | loading =>
      rw [hpc] at h
      exact ⟨update_zero_eq h.1 number entry, h.2⟩
    | threw category => trivial
    | _ => simpa only [hpc] using h
  | externalBackup outside =>
    unfold SafeInv at h ⊢
    cases hpc : s.pc with
    | checking | waiting | returned =>
      rw [hpc] at h
      exact h
    | threw category => trivial
    | _ => rw [hpc] at outside; cases outside
  | load pc next =>
    simp only [SafeInv, pc] at h ⊢
    exact ⟨h.1, h.2.1, h.2.2.append next trivial _⟩
  | loadFinal pc | build pc =>
    simp only [SafeInv, pc] at h ⊢
    exact h
  | reload pc next =>
    simp only [SafeInv, pc] at h ⊢
    exact ⟨h.1, h.2.1.append next trivial _, h.2.2⟩
  | fail | failReplace | stale => trivial
  | check pc =>
    simp only [SafeInv, pc] at h
    obtain ⟨category, hnext⟩ | ⟨value, -, hnext⟩ := orThrow_map_cases call.checks fun _ => .waiting
    · rw [hnext]
      trivial
    · rw [hnext]
      exact h
  | acquire pc =>
    simp only [SafeInv, pc] at h ⊢
    exact ⟨h.1, h.2, readAs_nil⟩
  | current pc complete same =>
    simp only [SafeInv, pc] at h ⊢
    refine snapshot_eq_of_identity hP h.2.2 hreviewed.loaded complete ?_ same
    rw [definitions, List.length_map]
  | prepare pc =>
    simp only [SafeInv, pc] at h
    by_cases hfile : (s.disk 0).isFile = true
    · rw [if_pos hfile]
      exact h
    · rw [if_neg hfile]
      trivial
  | @openFile lastWriteUtc fresh original time pc file =>
    simp only [SafeInv, pc] at h
    by_cases hlong : maximumFileBytes < original.length
    · rw [if_pos hlong]
      trivial
    · rw [if_neg hlong]
      exact h
  | @select lastWriteUtc fresh original pc =>
    simp only [SafeInv, pc] at h
    subst h
    obtain ⟨category, hnext⟩ | ⟨retained, hselect, hnext⟩ :=
      orThrow_map_cases (call.select call.reviewedSnapshot original lastWriteUtc) fun retained =>
        .building call.reviewedSnapshot original retained
    · rw [hnext]
      trivial
    · rw [hnext]
      exact selected_of_select hP hreviewed hselect
  | @recheck lastWriteUtc fresh original retained loaded pc complete =>
    simp only [SafeInv, pc] at h
    obtain ⟨category, hnext⟩ | ⟨value, -, hnext⟩ :=
      orThrow_map_cases (call.recheck ⟨loaded⟩ original) fun _ => .replacing fresh original retained
    · rw [hnext]
      trivial
    · rw [hnext]
      exact h
  | @replace lastWriteUtc fresh original retained pc file =>
    simp only [SafeInv, pc] at h ⊢
    exact ⟨h, readAs_nil, lastWriteUtc, rfl⟩
  | @verify lastWriteUtc fresh original retained loaded pc complete =>
    simp only [SafeInv, pc] at h
    obtain ⟨hselected, hloaded, after, hwritten⟩ := h
    obtain ⟨category, hnext⟩ | ⟨verified, hread, hnext⟩ :=
      orThrow_map_cases (readBack P fresh ⟨loaded⟩ s.backup original retained) fun verified =>
        .securing verified original retained
    · rw [hnext]
      trivial
    · rw [hnext]
      exact committed_of_readBack hP hselected hloaded hwritten hread
  | secure pc =>
    simp only [SafeInv, pc] at h ⊢
    exact h.1

/-- **The step that returns** leaves what was replaced in the backup. -/
theorem backedUp_of_return {entries : Disk} {s s' : RemoveState} {event : RemoveEvent}
    (hown : event.isOwn = true) (hstep : call.step s event = some s') (h : call.SafeInv entries s)
    {verified : KnownHostsStoreSnapshot} {original retained : Bytes}
    (hreturned : s'.pc = .returned verified original retained) : BackedUp s'.written s'.backup := by
  have hmoves := call.moves_of_step hstep
  cases hmoves with
  | external => cases hown
  | externalBackup outside => cases hown
  | secure pc =>
    simp only [SafeInv, pc] at h
    exact h.2
  | check | select | recheck | verify =>
    obtain ⟨_, hnext⟩ := orThrow_map_returned hreturned
    cases hnext
  | prepare | openFile =>
    simp only at hreturned
    split_ifs at hreturned
  | _ => cases hreturned

/-! ### A stale call -/

/-- The call has compared its first load with the reviewed snapshot, or is about to. -/
def StaleInv (loaded : List KnownHostsSourceSnapshot) (s : RemoveState) : Prop :=
  (s.pc = .loading loaded ∨ s.pc = .threw "store-generation-changed") ∧ s.disk 0 = s.untouched ∧
    s.written = none

theorem staleInv_step {loaded : List KnownHostsSourceSnapshot}
    (hcomplete : call.definitions.length ≤ loaded.length)
    (hstale : (⟨loaded⟩ : KnownHostsStoreSnapshot).identity P ≠ call.reviewedSnapshot.identity P)
    (s : RemoveState) (event : RemoveEvent) (s' : RemoveState) (hstep : call.step s event = some s')
    (h : StaleInv loaded s) : StaleInv loaded s' := by
  obtain ⟨hpc, hdisk, hwritten⟩ := h
  have hmoves := call.moves_of_step hstep
  cases hmoves with
  | @external number entry => exact ⟨hpc, update_zero_eq hdisk number entry, hwritten⟩
  | externalBackup outside => exact ⟨hpc, hdisk, hwritten⟩
  | stale pc complete differs => exact ⟨.inr rfl, hdisk, hwritten⟩
  | @load fault loaded' definition pc next =>
    obtain rfl : loaded' = loaded := by simpa [pc] using hpc
    rw [List.getElem?_eq_none_iff.mpr hcomplete] at next
    cases next
  | @fail category possible =>
    rcases hpc with hpc | hpc
    · rw [hpc] at possible
      cases possible
    · rw [hpc] at possible
      cases possible
  | @current _ loaded' pc complete same =>
    obtain rfl : loaded' = loaded := by simpa [pc] using hpc
    exact absurd same hstale
  | _ => simp_all

end RemoveCall

end VT7.KnownHosts
