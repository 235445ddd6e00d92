import VT7.KnownHosts.Writer

/-!
# A failed addition

What the primary file looks like when `AddPrimaryUserRecord` throws.  The write stands in the middle
of the call, and the checks behind it can fail for reasons that have nothing to do with it; so the
file is as it was only in runs in which nothing goes wrong from the write on (`Calm`).
-/

namespace VT7.KnownHosts

open VT7.Dotnet VT7.Lib

/-! ### Calm runs -/

/-- The call has loaded the source and still relies on it. -/
def AddPc.relies (number : ℕ) : AddPc → Bool
  | .loading loaded => number < loaded.length
  | .preparing _ | .probing _ | .opening _ _ | .holding _ _ | .writing _ _ _ | .verifying _ _ _ _ =>
    true
  | _ => false

def AddPc.isVerifying : AddPc → Bool
  | .verifying _ _ _ _ => true
  | _ => false

namespace AddCall

variable {P : Platform} (call : AddCall P)

/-- Nothing goes wrong from the write on, and nobody changes a file that the call relies on: the
primary file between the write and the end of the read-back, the other files from their first load
on.  The record that is written can be read back. -/
def Calm (s : AddState) : AddEvent → Prop
  | .external number _ => (number = 0 → s.pc.isVerifying = false) ∧
      (0 < number → number < call.definitions.length → s.pc.relies number = false)
  | .load fault => s.pc.isVerifying = true → fault = none
  | .fail _ => True
  | .failWrite bytes _ => bytes = 0
  | .proceed _ => ∀ fresh content addition, s.pc = .writing fresh content addition →
      ∀ first ∈ fresh.sources.head?,
        Storable P first.definition.sourceId content call.hostToken call.presented

/-- The primary file is as it was; a file that the call has created and left empty counts as
absent. -/
def Unchanged (entry untouched : DiskEntry) : Prop :=
  entry = untouched ∨ untouched = .missing ∧ ∃ lastWriteUtc, entry = .file [] lastWriteUtc

/-! ### The invariant of calm runs -/

/-- What the first load has read so far; behind the primary file it is still on the disk. -/
def Reads (disk : Disk) (loaded : List KnownHostsSourceSnapshot) : Prop :=
  ReadAs P call.definitions (fun number entry => 0 < number → entry = disk number) loaded

/-- What the call knows when the addition is on the disk. -/
structure Written (disk : Disk) (fresh : KnownHostsStoreSnapshot) (length : ℕ) (hash : Text) :
    Prop where
  exists_content : ∃ content lastWriteUtc first others,
    fresh.sources = first :: others ∧ call.definitions.head? = some first.definition ∧
    disk 0 = .file (content ++ buildAddition content call.hostToken call.presented) lastWriteUtc ∧
    length = (content ++ buildAddition content call.hostToken call.presented).length ∧
    hash = hex (P.sha256 (content ++ buildAddition content call.hostToken call.presented)) ∧
    length ≤ maximumFileBytes ∧ others = (load P call.definitions disk).sources.tail ∧
    AddsRecord first.definition.sourceId content call.hostToken call.presented
      (others.filterMap (·.document))

/-- The invariant. -/
def CalmInv (s : AddState) : Prop :=
  match s.pc with
  | .checking | .waiting => s.disk 0 = s.untouched
  | .loading loaded => s.disk 0 = s.untouched ∧ call.Reads s.disk loaded
  | .preparing fresh | .probing fresh | .opening fresh _ =>
    s.disk 0 = s.untouched ∧ call.Reads s.disk fresh.sources ∧
      call.definitions.length ≤ fresh.sources.length
  | .holding fresh _ =>
    Unchanged (s.disk 0) s.untouched ∧ call.Reads s.disk fresh.sources ∧
      call.definitions.length ≤ fresh.sources.length
  | .writing fresh content addition =>
    Unchanged (s.disk 0) s.untouched ∧ call.Reads s.disk fresh.sources ∧
      call.definitions.length ≤ fresh.sources.length ∧
      ∃ existed lastWriteUtc, s.disk 0 = .file content lastWriteUtc ∧
        call.planAddition fresh existed content lastWriteUtc = .ok addition
  | .verifying fresh length hash loaded =>
    call.Written s.disk fresh length hash ∧
      loaded = (load P call.definitions s.disk).sources.take loaded.length
  | .returned _ => True
  | .threw _ => Unchanged (s.disk 0) s.untouched

theorem Reads.update {disk : Disk} {loaded : List KnownHostsSourceSnapshot}
    (h : call.Reads disk loaded) {number : ℕ} {entry : DiskEntry}
    (hfree : 0 < number → number < call.definitions.length → ¬ number < loaded.length) :
    call.Reads (Function.update disk number entry) loaded := by
  intro i source hi
  obtain ⟨definition, e, fault, hdef, hload, heq⟩ := h i source hi
  refine ⟨definition, e, fault, hdef, hload, fun hpos => ?_⟩
  have hne : i ≠ number := by
    rintro rfl
    have h1 : i < loaded.length := (List.getElem?_eq_some_iff.mp hi).1
    have h2 : i < call.definitions.length := (List.getElem?_eq_some_iff.mp hdef).1
    exact hfree hpos h2 h1
  rw [Function.update_of_ne hne]
  exact heq hpos

/-- Sources without a fatal error were read without a fault: they are what a load sees now. -/
theorem Reads.others_eq {disk : Disk} {first : KnownHostsSourceSnapshot}
    {others : List KnownHostsSourceSnapshot} (h : call.Reads disk (first :: others))
    (hcomplete : call.definitions.length ≤ (first :: others).length)
    (hlegible : ∀ source ∈ others, source.document.bind (·.fatalError) = none) :
    others = (load P call.definitions disk).sources.tail := by
  apply List.ext_getElem?
  intro i
  rw [List.getElem?_tail, ← h.getElem?_eq hcomplete (fun entry hentry => hentry (by omega))
    (fun source hs => hlegible source (List.mem_of_getElem? hs)), List.getElem?_cons_succ]

/-- The other documents of an unknown host have no fatal error. -/
theorem fatalError_of_unknown {document : KnownHostsDocument} {others : List KnownHostsSourceSnapshot}
    (h : ∃ result, resolve call.hostToken call.presented
      (document :: others.filterMap (·.document)) = .ok result ∧ result.state = .unknown) :
    document.fatalError = none ∧
      ∀ source ∈ others, source.document.bind (·.fatalError) = none := by
  obtain ⟨result, hresult, hstate⟩ := h
  rw [resolve_eq_ok _ _ hresult] at hstate
  obtain ⟨-, hlegible, -, -⟩ := (resolve_unknown_iff call.hostToken call.presented _).mp hstate
  refine ⟨hlegible.complete _ List.mem_cons_self, fun source hs => ?_⟩
  cases hd : source.document with
  | none => rfl
  | some d =>
    exact hlegible.complete d (List.mem_cons_of_mem _ (List.mem_filterMap.mpr ⟨source, hs, hd⟩))

/-- **The write**, from a calm state. -/
theorem written_of_writing {disk : Disk} {fresh : KnownHostsStoreSnapshot} {existed : Bool}
    {content addition : Bytes} {time : ℕ} (htoken : IsHostToken call.hostToken)
    (hreads : call.Reads disk fresh.sources)
    (hcomplete : call.definitions.length ≤ fresh.sources.length)
    (hplan : call.planAddition fresh existed content time = .ok addition)
    (hstorable : ∀ first ∈ fresh.sources.head?,
      Storable P first.definition.sourceId content call.hostToken call.presented)
    (lastWriteUtc : ℕ) :
    call.Written (Function.update disk 0 (.file (content ++ addition) lastWriteUtc)) fresh
      (content.length + addition.length) (hex (P.sha256 (content ++ addition))) := by
  obtain ⟨first, others, hsources, -, -, hunknown, rfl, hsize⟩ := planAddition_ok hplan
  rw [hsources] at hreads hcomplete
  have hstorable := hstorable first (by rw [hsources]; rfl)
  obtain ⟨hfatal, hlegible⟩ := call.fatalError_of_unknown hunknown
  obtain ⟨definition, entry, fault, hdef, hfirst, -⟩ := hreads 0 first rfl
  have hreads' := @Reads.update _ call _ _ hreads 0 (.file (content ++ buildAddition content
    call.hostToken call.presented) lastWriteUtc) (by simp)
  refine ⟨content, lastWriteUtc, first, others, hsources, ?_, Function.update_self .., ?_, rfl, ?_,
    hreads'.others_eq call hcomplete hlegible, .of_storable hfatal htoken hunknown hsize hstorable⟩
  · rw [hfirst, loadSource_definition, ← hdef, List.head?_eq_getElem?]
  · rw [List.length_append]
  · exact hsize

/-- **The read-back**, in a calm state, finds what it expects. -/
theorem readBack_of_written {disk : Disk} {fresh : KnownHostsStoreSnapshot} {length : ℕ}
    {hash : Text} (h : call.Written disk fresh length hash) :
    call.readBack fresh (load P call.definitions disk) length hash =
      .ok (load P call.definitions disk) := by
  obtain ⟨content, time, first, others, hsources, hhead, hdisk, rfl, rfl, hsize, hothers, hadds⟩ := h
  obtain ⟨rest, hdefs⟩ : ∃ rest, call.definitions = first.definition :: rest := by
    cases hd : call.definitions with
    | nil => rw [hd] at hhead; cases hhead
    | cons d rest =>
      rw [hd] at hhead
      cases hhead
      exact ⟨rest, rfl⟩
  have hload : (load P call.definitions disk).sources =
      createSourceSnapshot P first.definition
        (content ++ buildAddition content call.hostToken call.presented) time :: others := by
    have hcons : (load P call.definitions disk).sources =
        loadSource P first.definition (disk 0) none ::
          (load P call.definitions disk).sources.tail := by
      rw [hdefs, load_cons]
      rfl
    rw [hcons, hdisk, loadSource_file hsize, ← hothers]
  rw [readBack_iff]
  refine ⟨rfl, _, _, hload, ?_, rfl, rfl, rfl, ?_, ?_⟩
  · rw [hload, hsources]
    rfl
  · rw [hsources]
    intro same hs
    obtain ⟨i, hi, rfl⟩ := List.mem_iff_getElem.mp hs
    simp [sameSource_self]
  · have hdocuments : (load P call.definitions disk).documents =
        parse first.definition.sourceId
          (content ++ buildAddition content call.hostToken call.presented) ::
            others.filterMap (·.document) := by
      unfold KnownHostsStoreSnapshot.documents
      rw [hload]
      rfl
    rw [hdocuments]
    exact hadds.matching

/-- A change of another file is invisible to the call. -/
theorem Written.update {disk : Disk} {fresh : KnownHostsStoreSnapshot} {length : ℕ} {hash : Text}
    (h : call.Written disk fresh length hash) {number : ℕ} {entry : DiskEntry} (hpos : number ≠ 0)
    (hload : load P call.definitions (Function.update disk number entry) =
      load P call.definitions disk) :
    call.Written (Function.update disk number entry) fresh length hash := by
  obtain ⟨content, time, first, others, hsources, hhead, hdisk, hlength, hhash, hsize, hothers,
    hadds⟩ := h
  exact ⟨content, time, first, others, hsources, hhead, by rwa [Function.update_of_ne hpos.symm],
    hlength, hhash, hsize, by rwa [hload], hadds⟩

theorem load_update {definitions : List KnownHostsSourceDefinition} {disk : Disk} {number : ℕ}
    (h : definitions.length ≤ number) (entry : DiskEntry) :
    load P definitions (Function.update disk number entry) = load P definitions disk := by
  unfold load
  congr 1
  apply List.ext_getElem?
  intro i
  rw [List.getElem?_mapIdx, List.getElem?_mapIdx]
  cases hi : definitions[i]? with
  | none => rfl
  | some definition =>
    have hlt := (List.getElem?_eq_some_iff.mp hi).1
    rw [Option.map_some, Option.map_some, Function.update_of_ne (by omega)]

/-- **Other programs** keep the invariant, as long as they are calm. -/
theorem calmInv_external {s : AddState} {number : ℕ} {entry : DiskEntry}
    (hcalm : call.Calm s (.external number entry)) (free : s.pc.isHolding = true → number ≠ 0)
    (h : call.CalmInv s) : call.CalmInv { s with
      disk := Function.update s.disk number entry
      untouched := if number = 0 then entry else s.untouched } := by
  obtain ⟨hprimary, hothers⟩ := hcalm
  have hzero : s.disk 0 = s.untouched →
      Function.update s.disk number entry 0 = if number = 0 then entry else s.untouched :=
    fun heq => update_zero_eq heq number entry
  have hunchanged : Unchanged (s.disk 0) s.untouched →
      Unchanged (Function.update s.disk number entry 0)
        (if number = 0 then entry else s.untouched) := by
    intro hu
    by_cases hn : number = 0
    · subst hn
      exact .inl (by simp)
    · rwa [Function.update_of_ne (Ne.symm hn), if_neg hn]
  have hreads : ∀ {loaded}, call.Reads s.disk loaded →
      (s.pc.relies number = false → ¬ number < loaded.length) →
      call.Reads (Function.update s.disk number entry) loaded :=
    fun hr hfree => hr.update call fun hpos hlt => hfree (hothers hpos hlt)
  unfold CalmInv at h ⊢
  cases hpc : s.pc with
  | checking | waiting => rw [hpc] at h; exact hzero h
  | loading loaded =>
    rw [hpc] at h hreads
    exact ⟨hzero h.1, hreads h.2 (by simp [AddPc.relies])⟩
  | preparing | probing | opening =>
    rw [hpc] at h hreads
    exact ⟨hzero h.1, hreads h.2.1 (by simp [AddPc.relies]), h.2.2⟩
  | holding fresh existed =>
    rw [hpc] at h hreads
    exact ⟨hunchanged h.1, hreads h.2.1 (by simp [AddPc.relies]), h.2.2⟩
  | writing fresh content addition =>
    rw [hpc] at h hreads free
    have hn : number ≠ 0 := free rfl
    obtain ⟨hu, hr, hcomplete, existed, time, hdisk, hplan⟩ := h
    exact ⟨hunchanged hu, hreads hr (by simp [AddPc.relies]), hcomplete, existed, time,
      (Function.update_of_ne (Ne.symm hn) ..).trans hdisk, hplan⟩
  | verifying fresh length hash loaded =>
    rw [hpc] at h hprimary hothers
    have hn : number ≠ 0 := fun hz => by simpa [AddPc.isVerifying] using hprimary hz
    have hle : call.definitions.length ≤ number := by
      by_contra hlt
      simpa [AddPc.relies] using hothers (by omega) (by omega)
    have hload := @load_update P _ s.disk number hle entry
    exact ⟨h.1.update call hn hload, by rw [hload]; exact h.2⟩
  | returned verified => trivial
  | threw category => rw [hpc] at h; exact hunchanged h

/-- **The step lemma.** -/
theorem calmInv_step (htoken : IsHostToken call.hostToken) (s : AddState) (event : AddEvent)
    (s' : AddState) (hcalm : call.Calm s event) (hstep : call.step s event = some s')
    (h : call.CalmInv s) : call.CalmInv s' := by
  have hmoves := call.moves_of_step hstep
  cases hmoves with
  | external free => exact call.calmInv_external hcalm free h
  | load pc next =>
    simp only [CalmInv, pc] at h ⊢
    exact ⟨h.1, h.2.append next (fun _ => rfl) _⟩
  | @reload fault fresh length hash loaded definition pc next =>
    simp only [CalmInv, pc] at h ⊢
    obtain rfl : fault = none := hcalm (by rw [pc]; rfl)
    exact ⟨h.1, take_load_append h.2 next⟩
  | @fail category possible =>
    unfold CalmInv at h ⊢
    cases hpc : s.pc with
    | waiting => rw [hpc] at h; exact .inl h
    | preparing | opening => rw [hpc] at h; exact .inl h.1
    | holding fresh existed => rw [hpc] at h; exact h.1
    | _ => rw [hpc] at possible; cases possible
  | failWriteNone pc | reject pc =>
    simp only [CalmInv, pc] at h ⊢
    exact h.1
  | failWriteSome pc some => exact absurd hcalm some
  | refuse pc bad =>
    simp only [CalmInv, pc] at h ⊢
    exact .inl h
  | accept pc | prepare pc | probe pc =>
    simp only [CalmInv, pc] at h ⊢
    exact h
  | acquire pc =>
    simp only [CalmInv, pc] at h ⊢
    exact ⟨h, fun number source hs => by simp at hs⟩
  | stale pc complete differs =>
    simp only [CalmInv, pc] at h ⊢
    exact .inl h.1
  | current pc complete same =>
    simp only [CalmInv, pc] at h ⊢
    exact ⟨h.1, h.2, complete⟩
  | openFile pc file =>
    simp only [CalmInv, pc] at h ⊢
    exact ⟨.inl h.1, h.2⟩
  | @createFile lastWriteUtc fresh pc missing =>
    simp only [CalmInv, pc] at h ⊢
    refine ⟨.inr ⟨h.1 ▸ missing, lastWriteUtc, by simp⟩, ?_, h.2.2⟩
    exact h.2.1.update call (by simp)
  | @plan lastWriteUtc fresh existed content time addition pc file good =>
    simp only [CalmInv, pc] at h ⊢
    exact ⟨h.1, h.2.1, h.2.2, existed, time, file, good⟩
  | @write lastWriteUtc fresh content addition pc =>
    simp only [CalmInv, pc] at h ⊢
    obtain ⟨-, hreads, hcomplete, existed, time, -, hplan⟩ := h
    refine ⟨call.written_of_writing htoken hreads hcomplete hplan
      (hcalm fresh content addition pc) lastWriteUtc, ?_⟩
    simp
  | @unverified lastWriteUtc fresh length hash loaded category pc complete bad =>
    simp only [CalmInv, pc] at h
    rw [load_complete h.2 complete] at bad
    have hgood := call.readBack_of_written h.1
    rw [bad] at hgood
    cases hgood
  | verify pc complete good => trivial

/-! ### Failed additions -/

/-- What other programs alone have made of the primary file. -/
def byOthers (entry : DiskEntry) : List AddEvent → DiskEntry
  | [] => entry
  | .external 0 changed :: events => byOthers changed events
  | _ :: events => byOthers entry events

theorem untouched_step {s s' : AddState} {event : AddEvent} (h : call.step s event = some s') :
    s'.untouched = byOthers s.untouched [event] := by
  have hmoves := call.moves_of_step h
  cases hmoves with
  | @external number entry free =>
    cases number with
    | zero => rfl
    | succ n => rfl
  | _ => rfl

theorem byOthers_cons (entry : DiskEntry) (event : AddEvent) (events : List AddEvent) :
    byOthers entry (event :: events) = byOthers (byOthers entry [event]) events := by
  cases event with
  | external number changed => cases number <;> rfl
  | _ => rfl

theorem untouched_run {events : List AddEvent} {s s' : AddState}
    (h : Run.run call.step s events = some s') : s'.untouched = byOthers s.untouched events := by
  induction events generalizing s with
  | nil =>
    obtain rfl := Run.run_nil.mp h
    rfl
  | cons event events ih =>
    obtain ⟨t, ht, hrest⟩ := Run.run_cons.mp h
    rw [byOthers_cons, ih hrest, call.untouched_step ht]

/-- An empty file holds no evidence. -/
theorem evidence_parse_empty (sourceId : String) (hostToken : Text)
    (inspect : KnownHostRecord → Option Finding) (documents : List KnownHostsDocument) :
    evidence P hostToken inspect (parse sourceId [] :: documents) =
      evidence P hostToken inspect documents := by
  have hlines : (parse sourceId []).lines = [] := rfl
  have hfatal : (parse sourceId []).fatalError = none := rfl
  ext kind
  simp [evidence, hlines, hfatal]

/-- An empty file says as much as no file. -/
theorem resolve_state_unchanged {disk : Disk} {untouched : DiskEntry}
    (h : Unchanged (disk 0) untouched) (definitions : List KnownHostsSourceDefinition)
    (hostToken : Text) (presented : PresentedHostKey P) :
    (resolve hostToken presented (load P definitions disk).documents).map (·.state) =
      (resolve hostToken presented
        (load P definitions (Function.update disk 0 untouched)).documents).map (·.state) := by
  rcases h with rfl | ⟨rfl, lastWriteUtc, hempty⟩
  · rw [Function.update_eq_self]
  cases definitions with
  | nil => rfl
  | cons definition definitions =>
    have hold : (load P (definition :: definitions) (Function.update disk 0 .missing)).documents =
        (load P definitions fun number => disk (number + 1)).documents := by
      unfold KnownHostsStoreSnapshot.documents
      rw [load_cons]
      simp [loadSource, missingSource]
    have hnew : (load P (definition :: definitions) disk).documents =
        parse definition.sourceId [] :: (load P definitions fun number => disk (number + 1)).documents := by
      unfold KnownHostsStoreSnapshot.documents
      rw [load_cons, hempty, loadSource_file (by simp)]
      rfl
    rw [hold, hnew, resolve_state, resolve_state]
    unfold plainEvidence
    rw [evidence_parse_empty]

/-- **A failed addition leaves the primary file as it was, in every calm run.**  When the call has
thrown, the file holds what it held before the call, up to the changes of other programs, and a
later load and resolution of any token and key sees no difference. -/
theorem failed_add_leaves_primary (htoken : IsHostToken call.hostToken) (disk : Disk)
    (events : List AddEvent) (s : AddState)
    (hcalm : Run.Along call.step call.Calm (start disk) events)
    (hrun : Run.run call.step (start disk) events = some s) (category : String)
    (hthrew : s.pc = .threw category) :
    Unchanged (s.disk 0) (byOthers (disk 0) events) ∧
      ∀ (hostToken : Text) (presented : PresentedHostKey P),
        (resolve hostToken presented (load P call.definitions s.disk).documents).map (·.state) =
          (resolve hostToken presented (load P call.definitions
            (Function.update s.disk 0 (byOthers (disk 0) events))).documents).map (·.state) := by
  have hinv : call.CalmInv s :=
    Run.run_invariant_along (call.calmInv_step htoken) hcalm hrun rfl
  have huntouched := call.untouched_run hrun
  simp only [CalmInv, hthrew, huntouched] at hinv
  exact ⟨hinv, resolve_state_unchanged hinv call.definitions⟩

/-- A check for `Calm`, in runs that write no byte. -/
def calmCheck (s : AddState) : AddEvent → Bool
  | .load fault => fault == none
  | .fail _ => true
  | .failWrite bytes _ => bytes == 0
  | .proceed _ => match s.pc with
    | .writing _ _ _ => false
    | _ => true
  | _ => false

theorem calm_of_check (s : AddState) (event : AddEvent) (h : calmCheck s event = true) :
    call.Calm s event := by
  cases event with
  | load fault => exact fun _ => by simpa [calmCheck] using h
  | fail category => trivial
  | failWrite bytes lastWriteUtc => exact eq_of_beq h
  | proceed lastWriteUtc =>
    intro fresh content addition hpc
    simp [calmCheck, hpc] at h
  | external number entry => cases h

end AddCall

section Sample

def AddPc.category : AddPc → Option String
  | .threw category => some category
  | _ => none

/-- The call that adds the sample key for a token to a store. -/
def sampleAdd (disk : Disk) (hostToken : String) : AddCall storePlatform :=
  ⟨load storePlatform sampleDefinitions disk, hostToken.toList, storeKey⟩

def loads : List AddEvent := List.replicate 4 (.load none)

/-- The call up to the checks on the open file. -/
def untilAdmitted : List AddEvent :=
  [.proceed 0, .proceed 0] ++ loads ++ List.replicate 4 (.proceed 6) ++ [.proceed 6]

/-- The write fails before its first byte is on the disk. -/
def failingRun : List AddEvent := untilAdmitted ++ [.failWrite 0 7]

/-- The call throws, and the new file is empty. -/
theorem failed_add_leaves_primary_stored : ∃ s,
    Run.run (sampleAdd emptyDisk "a").step (AddCall.start emptyDisk) failingRun = some s ∧
      s.pc.category = some "filesystem" ∧
      AddCall.Unchanged (s.disk 0) (AddCall.byOthers (emptyDisk 0) failingRun) := by
  have hrun : (Run.run (sampleAdd emptyDisk "a").step (AddCall.start emptyDisk) failingRun).map
      (·.pc.category) = some (some "filesystem") := by decide +kernel
  obtain ⟨s, hs, hcategory⟩ := Option.map_eq_some_iff.mp hrun
  have hthrew : s.pc = .threw "filesystem" := by
    cases hpc : s.pc <;> rw [hpc] at hcategory <;> cases hcategory
    rfl
  refine ⟨s, hs, hcategory, ?_⟩
  exact ((sampleAdd emptyDisk "a").failed_add_leaves_primary ⟨"a".toList, 22, by decide⟩ emptyDisk
    failingRun s (Run.along_of_check (sampleAdd emptyDisk "a").calm_of_check
      (by decide +kernel)) hs _ hthrew).1

/-- Another program creates `known_hosts2` between the write and the read-back. -/
def disturbedRun : List AddEvent :=
  untilAdmitted ++ [.proceed 7, .external 1 (.file (utf8Bytes "# c\n".toList) 8)] ++ loads ++
    [.proceed 9]

/-- The call throws, and the record that it wrote stays: a later load finds the key. -/
theorem failed_add_leaves_record :
    (Run.run (sampleAdd emptyDisk "a").step (AddCall.start emptyDisk) disturbedRun).map
        (fun s => (s.pc.category, s.disk 0,
          ((resolve "a".toList storeKey (load storePlatform sampleDefinitions s.disk).documents).map
            (·.state)).toOption)) =
      some (some "read-back-generation", .file (utf8Bytes storedText.toList) 7, some .matching) ∧
    AddCall.byOthers (emptyDisk 0) disturbedRun = .missing ∧
    ((resolve "a".toList storeKey
      (load storePlatform sampleDefinitions emptyDisk).documents).map (·.state)).toOption =
        some .unknown := by
  decide +kernel

end Sample

end VT7.KnownHosts
