import Mathlib.Logic.Function.Basic
import VT7.KnownHosts.Addition
import VT7.Lib.Run

/-!
# Adding a record to the primary file

`OpenSshKnownHostsWriter.AddPrimaryUserRecord` as a machine.  A step of the machine is one access to
the file system or one of the checks between two accesses; what other programs do to the four files
in between is an event like the others.  While the call holds the primary file it shares it for
reading only, and no other program can change it.

Loading a store reads its files one after the other, so that other programs can change a file between
two reads of one load.  An I/O failure is an event at the places where the code can meet one.
-/

namespace VT7.KnownHosts

open VT7.Dotnet VT7.Lib

/-! ### Files -/

/-- The files of the four sources by number; the primary file is number 0. -/
abbrev Disk := ℕ → DiskEntry

/-- `File.Exists`. -/
def DiskEntry.isFile : DiskEntry → Bool
  | .file _ _ => true
  | _ => false

/-- One more source of a load, with what went wrong while it was read. -/
def loadNext (P : Platform) (definitions : List KnownHostsSourceDefinition) (disk : Disk)
    (fault : Option LoadFault) (loaded : List KnownHostsSourceSnapshot) :
    Option (List KnownHostsSourceSnapshot) :=
  (definitions[loaded.length]?).map fun definition =>
    loaded ++ [loadSource P definition (disk loaded.length) fault]

/-- `OpenSshKnownHostsStore.Load`, when nothing happens meanwhile. -/
def load (P : Platform) (definitions : List KnownHostsSourceDefinition) (disk : Disk) :
    KnownHostsStoreSnapshot :=
  ⟨definitions.mapIdx fun number definition => loadSource P definition (disk number) none⟩

/-! ### Comparing snapshots -/

/-- `SameSource`. -/
def sameSource (P : Platform) (first second : KnownHostsSourceSnapshot) : Bool :=
  first.definition.sourceId = second.definition.sourceId &&
    P.toUpperInvariant first.definition.path = P.toUpperInvariant second.definition.path &&
    first.fileExists = second.fileExists && first.length = second.length &&
    first.lastWriteUtc = second.lastWriteUtc && first.contentHash = second.contentHash &&
    first.document.bind (·.fatalError) = second.document.bind (·.fatalError)

/-- `PrimaryMatchesFresh`. -/
def primaryMatchesFresh (expected current : KnownHostsSourceSnapshot) (existed : Bool) : Bool :=
  if !expected.fileExists then !existed && current.length = 0
  else if !existed then false
  else expected.length = current.length && expected.contentHash = current.contentHash

/-! ### The call -/

/-- The arguments of `AddPrimaryUserRecord`. -/
structure AddCall (P : Platform) where
  discoverySnapshot : KnownHostsStoreSnapshot
  hostToken : Text
  presented : PresentedHostKey P

/-- Where the call is. -/
inductive AddPc where
  | checking
  /-- In front of the mutex. -/
  | waiting
  | loading (loaded : List KnownHostsSourceSnapshot)
  | preparing (fresh : KnownHostsStoreSnapshot)
  | probing (fresh : KnownHostsStoreSnapshot)
  | opening (fresh : KnownHostsStoreSnapshot) (existed : Bool)
  /-- The primary file is open. -/
  | holding (fresh : KnownHostsStoreSnapshot) (existed : Bool)
  | writing (fresh : KnownHostsStoreSnapshot) (content addition : Bytes)
  /-- The primary file is closed again. -/
  | verifying (fresh : KnownHostsStoreSnapshot) (expectedPrimaryLength : ℕ)
    (expectedPrimaryHash : Text) (loaded : List KnownHostsSourceSnapshot)
  | returned (verified : KnownHostsStoreSnapshot)
  | threw (category : String)

/-- The call and the files.  Two fields are no part of the program: `untouched` is the primary file
as the other programs alone would have made it, and `written` is the primary file right before and
right after the call wrote it. -/
structure AddState where
  disk : Disk
  untouched : DiskEntry
  written : Option (DiskEntry × DiskEntry)
  pc : AddPc

/-- The call writes the primary file. -/
def AddState.write (s : AddState) (entry : DiskEntry) (pc : AddPc) : AddState :=
  ⟨Function.update s.disk 0 entry, s.untouched, some (s.disk 0, entry), pc⟩

inductive AddEvent where
  /-- Another program changes a file. -/
  | external (number : ℕ) (entry : DiskEntry)
  /-- The next source is loaded. -/
  | load (fault : Option LoadFault)
  /-- An access fails. -/
  | fail (category : String)
  /-- The write fails behind some of the bytes. -/
  | failWrite (bytes : ℕ) (lastWriteUtc : ℕ)
  /-- The code goes on; a file that is written gets the time. -/
  | proceed (lastWriteUtc : ℕ)

def AddPc.isHolding : AddPc → Bool
  | .holding _ _ | .writing _ _ _ => true
  | _ => false

/-- How an access can fail at each place, apart from the write. -/
def AddPc.failures : AddPc → List String
  | .waiting => ["writer-lock-timeout"]
  | .preparing _ => ["primary-path", "reparse-directory", "directory-path-is-file",
      "profile-directory-missing", "current-user-identity", "unsafe-primary-file", "filesystem"]
  | .opening _ _ => ["unsafe-primary-file", "current-user-identity", "filesystem"]
  | .holding _ _ => ["filesystem"]
  | _ => []

namespace AddCall

variable {P : Platform} (call : AddCall P)

def definitions : List KnownHostsSourceDefinition :=
  call.discoverySnapshot.sources.map (·.definition)

/-- The checks of the arguments, with the category of the exception. -/
def checks : Option String :=
  if call.hostToken.length = 0 ∨ call.hostToken.any (fun c => c ≤ ' ' || c.toNat = 0x7f) then
    some "host-token"
  else if call.presented.isCertificate then some "certificate-policy"
  else if call.discoverySnapshot.sources.length ≠ 4 ∨
      call.definitions.head?.map (·.sourceId) ≠ some "user-known-hosts" then some "source-layout"
  else none

def KnownHostTrustState.lower : KnownHostTrustState → String
  | .matching => "matching"
  | .unknown => "unknown"
  | .changed => "changed"
  | .revoked => "revoked"
  | .unreadable => "unreadable"
  | .policyRejected => "policyrejected"

/-- The checks on the open file: the addition to write, or the category of the exception. -/
def planAddition (fresh : KnownHostsStoreSnapshot) (existed : Bool) (content : Bytes) (lastWriteUtc : ℕ) :
    Except String Bytes :=
  match fresh.sources with
  | [] => .error "source-layout"
  | first :: others =>
    if maximumFileBytes < content.length then .error "file-size-limit"
    else
      let current := createSourceSnapshot P first.definition content lastWriteUtc
      if !primaryMatchesFresh first current existed then .error "primary-generation-changed"
      else
        let held : KnownHostsStoreSnapshot := ⟨current :: others⟩
        match resolve call.hostToken call.presented held.documents with
        | .error message => .error message
        | .ok before =>
          if before.state ≠ .unknown then
            .error ("trust-state-changed-" ++ KnownHostTrustState.lower before.state)
          else
            let addition := buildAddition content call.hostToken call.presented
            if maximumFileBytes < content.length + addition.length then .error "file-size-limit"
            else .ok addition

/-- The checks on what was read back. -/
def readBack (fresh verified : KnownHostsStoreSnapshot) (expectedPrimaryLength : ℕ)
    (expectedPrimaryHash : Text) : Except String KnownHostsStoreSnapshot :=
  match verified.sources with
  | [] => .error "read-back-generation"
  | first :: others =>
    if verified.sources.length ≠ fresh.sources.length ∨ first.fileExists = false ∨
        first.length ≠ expectedPrimaryLength ∨ first.contentHash ≠ expectedPrimaryHash ∨
        (others.zipWith (sameSource P) fresh.sources.tail).any (fun same => !same) = true then
      .error "read-back-generation"
    else
      match resolve call.hostToken call.presented verified.documents with
      | .error message => .error message
      | .ok result =>
        if result.state ≠ .matching then .error "read-back-verification" else .ok verified

/-- The code goes on. -/
def proceed (s : AddState) (lastWriteUtc : ℕ) : Option AddState :=
  match s.pc with
  | .checking =>
    some { s with pc := match call.checks with
      | some category => .threw category
      | none => .waiting }
  | .waiting => some { s with pc := .loading [] }
  | .loading loaded =>
    if loaded.length < call.definitions.length then none
    else if (⟨loaded⟩ : KnownHostsStoreSnapshot).identity P ≠ call.discoverySnapshot.identity P then
      some { s with pc := .threw "store-generation-changed" }
    else some { s with pc := .preparing ⟨loaded⟩ }
  | .preparing fresh => some { s with pc := .probing fresh }
  | .probing fresh => some { s with pc := .opening fresh (s.disk 0).isFile }
  | .opening fresh existed =>
    match existed, s.disk 0 with
    | true, .file _ _ => some { s with pc := .holding fresh existed }
    | false, .missing =>
      some { s with disk := Function.update s.disk 0 (.file [] lastWriteUtc),
                    pc := .holding fresh existed }
    | _, _ => none
  | .holding fresh existed =>
    match s.disk 0 with
    | .file content lastWrite =>
      some { s with pc := match call.planAddition fresh existed content lastWrite with
        | .error category => .threw category
        | .ok addition => .writing fresh content addition }
    | _ => none
  | .writing fresh content addition =>
    some (s.write (.file (content ++ addition) lastWriteUtc)
      (.verifying fresh (content.length + addition.length) (hex (P.sha256 (content ++ addition))) []))
  | .verifying fresh expectedPrimaryLength expectedPrimaryHash loaded =>
    if loaded.length < call.definitions.length then none
    else
      some { s with
        pc := match call.readBack fresh ⟨loaded⟩ expectedPrimaryLength expectedPrimaryHash with
          | .error category => .threw category
          | .ok verified => .returned verified }
  | .returned _ => none
  | .threw _ => none

/-- **A step of `AddPrimaryUserRecord`**, or of another program. -/
def step (s : AddState) : AddEvent → Option AddState
  | .external number entry =>
    if s.pc.isHolding = true ∧ number = 0 then none
    else some { s with disk := Function.update s.disk number entry,
                       untouched := if number = 0 then entry else s.untouched }
  | .load fault =>
    match s.pc with
    | .loading loaded =>
      (loadNext P call.definitions s.disk fault loaded).map fun loaded =>
        { s with pc := .loading loaded }
    | .verifying fresh expectedPrimaryLength expectedPrimaryHash loaded =>
      (loadNext P call.definitions s.disk fault loaded).map fun loaded =>
        { s with pc := .verifying fresh expectedPrimaryLength expectedPrimaryHash loaded }
    | _ => none
  | .fail category => if category ∈ s.pc.failures then some { s with pc := .threw category } else none
  | .failWrite bytes lastWriteUtc =>
    match s.pc with
    | .writing _ content addition =>
      if bytes = 0 then some { s with pc := .threw "filesystem" }
      else some (s.write (.file (content ++ addition.take bytes) lastWriteUtc) (.threw "filesystem"))
    | _ => none
  | .proceed lastWriteUtc => call.proceed s lastWriteUtc

/-- The call has not begun. -/
def start (disk : Disk) : AddState := ⟨disk, disk 0, none, .checking⟩

/-! ### What a step can do -/

/-- The transitions of the machine, one by one. -/
inductive Moves : AddState → AddEvent → AddState → Prop
  | external {s : AddState} {number : ℕ} {entry : DiskEntry}
    (free : s.pc.isHolding = true → number ≠ 0) :
    Moves s (.external number entry) { s with
      disk := Function.update s.disk number entry
      untouched := if number = 0 then entry else s.untouched }
  | load {s : AddState} {fault loaded definition} (pc : s.pc = .loading loaded)
    (next : call.definitions[loaded.length]? = some definition) :
    Moves s (.load fault) { s with
      pc := .loading (loaded ++ [loadSource P definition (s.disk loaded.length) fault]) }
  | reload {s : AddState} {fault fresh length hash loaded definition}
    (pc : s.pc = .verifying fresh length hash loaded)
    (next : call.definitions[loaded.length]? = some definition) :
    Moves s (.load fault) { s with
      pc := .verifying fresh length hash
        (loaded ++ [loadSource P definition (s.disk loaded.length) fault]) }
  | fail {s : AddState} {category : String} (possible : category ∈ s.pc.failures) :
    Moves s (.fail category) { s with pc := .threw category }
  | failWriteNone {s : AddState} {fresh content addition lastWriteUtc}
    (pc : s.pc = .writing fresh content addition) :
    Moves s (.failWrite 0 lastWriteUtc) { s with pc := .threw "filesystem" }
  | failWriteSome {s : AddState} {fresh content addition bytes lastWriteUtc}
    (pc : s.pc = .writing fresh content addition) (some : bytes ≠ 0) :
    Moves s (.failWrite bytes lastWriteUtc)
      (s.write (.file (content ++ addition.take bytes) lastWriteUtc) (.threw "filesystem"))
  | refuse {s : AddState} {lastWriteUtc category} (pc : s.pc = .checking)
    (bad : call.checks = some category) :
    Moves s (.proceed lastWriteUtc) { s with pc := .threw category }
  | accept {s : AddState} {lastWriteUtc} (pc : s.pc = .checking) (good : call.checks = none) :
    Moves s (.proceed lastWriteUtc) { s with pc := .waiting }
  | acquire {s : AddState} {lastWriteUtc} (pc : s.pc = .waiting) :
    Moves s (.proceed lastWriteUtc) { s with pc := .loading [] }
  | stale {s : AddState} {lastWriteUtc loaded} (pc : s.pc = .loading loaded)
    (complete : call.definitions.length ≤ loaded.length)
    (differs : (⟨loaded⟩ : KnownHostsStoreSnapshot).identity P ≠ call.discoverySnapshot.identity P) :
    Moves s (.proceed lastWriteUtc) { s with pc := .threw "store-generation-changed" }
  | current {s : AddState} {lastWriteUtc loaded} (pc : s.pc = .loading loaded)
    (complete : call.definitions.length ≤ loaded.length)
    (same : (⟨loaded⟩ : KnownHostsStoreSnapshot).identity P = call.discoverySnapshot.identity P) :
    Moves s (.proceed lastWriteUtc) { s with pc := .preparing ⟨loaded⟩ }
  | prepare {s : AddState} {lastWriteUtc fresh} (pc : s.pc = .preparing fresh) :
    Moves s (.proceed lastWriteUtc) { s with pc := .probing fresh }
  | probe {s : AddState} {lastWriteUtc fresh} (pc : s.pc = .probing fresh) :
    Moves s (.proceed lastWriteUtc) { s with pc := .opening fresh (s.disk 0).isFile }
  | openFile {s : AddState} {lastWriteUtc fresh content time} (pc : s.pc = .opening fresh true)
    (file : s.disk 0 = .file content time) :
    Moves s (.proceed lastWriteUtc) { s with pc := .holding fresh true }
  | createFile {s : AddState} {lastWriteUtc fresh} (pc : s.pc = .opening fresh false)
    (missing : s.disk 0 = .missing) :
    Moves s (.proceed lastWriteUtc) { s with
      disk := Function.update s.disk 0 (.file [] lastWriteUtc)
      pc := .holding fresh false }
  | reject {s : AddState} {lastWriteUtc fresh existed content time category}
    (pc : s.pc = .holding fresh existed) (file : s.disk 0 = .file content time)
    (bad : call.planAddition fresh existed content time = .error category) :
    Moves s (.proceed lastWriteUtc) { s with pc := .threw category }
  | plan {s : AddState} {lastWriteUtc fresh existed content time addition}
    (pc : s.pc = .holding fresh existed) (file : s.disk 0 = .file content time)
    (good : call.planAddition fresh existed content time = .ok addition) :
    Moves s (.proceed lastWriteUtc) { s with pc := .writing fresh content addition }
  | write {s : AddState} {lastWriteUtc fresh content addition}
    (pc : s.pc = .writing fresh content addition) :
    Moves s (.proceed lastWriteUtc) (s.write (.file (content ++ addition) lastWriteUtc)
      (.verifying fresh (content.length + addition.length)
        (hex (P.sha256 (content ++ addition))) []))
  | unverified {s : AddState} {lastWriteUtc fresh length hash loaded category}
    (pc : s.pc = .verifying fresh length hash loaded)
    (complete : call.definitions.length ≤ loaded.length)
    (bad : call.readBack fresh ⟨loaded⟩ length hash = .error category) :
    Moves s (.proceed lastWriteUtc) { s with pc := .threw category }
  | verify {s : AddState} {lastWriteUtc fresh length hash loaded verified}
    (pc : s.pc = .verifying fresh length hash loaded)
    (complete : call.definitions.length ≤ loaded.length)
    (good : call.readBack fresh ⟨loaded⟩ length hash = .ok verified) :
    Moves s (.proceed lastWriteUtc) { s with pc := .returned verified }

theorem moves_of_load {s s' : AddState} {fault : Option LoadFault}
    (h : call.step s (.load fault) = some s') : call.Moves s (.load fault) s' := by
  unfold step at h
  cases hpc : s.pc with
  | loading loaded =>
    simp only [hpc, loadNext, Option.map_map, Option.map_eq_some_iff, Function.comp] at h
    obtain ⟨definition, hnext, rfl⟩ := h
    exact .load hpc hnext
  | verifying fresh length hash loaded =>
    simp only [hpc, loadNext, Option.map_map, Option.map_eq_some_iff, Function.comp] at h
    obtain ⟨definition, hnext, rfl⟩ := h
    exact .reload hpc hnext
  | _ => simp [hpc] at h

theorem moves_of_proceed {s s' : AddState} {lastWriteUtc : ℕ}
    (h : call.step s (.proceed lastWriteUtc) = some s') :
    call.Moves s (.proceed lastWriteUtc) s' := by
  change call.proceed s lastWriteUtc = some s' at h
  unfold proceed at h
  cases hpc : s.pc with
  | checking =>
    simp only [hpc, Option.some.injEq] at h
    subst h
    cases hc : call.checks with
    | none => exact .accept hpc hc
    | some category => exact .refuse hpc hc
  | waiting =>
    simp only [hpc, Option.some.injEq] at h
    subst h
    exact .acquire hpc
  | loading loaded =>
    simp only [hpc] at h
    split_ifs at h with hshort hdiffers
    · cases h
      exact .stale hpc (by omega) hdiffers
    · cases h
      exact .current hpc (by omega) (by simpa using hdiffers)
  | preparing fresh =>
    simp only [hpc, Option.some.injEq] at h
    subst h
    exact .prepare hpc
  | probing fresh =>
    simp only [hpc, Option.some.injEq] at h
    subst h
    exact .probe hpc
  | opening fresh existed =>
    simp only [hpc] at h
    cases existed with
    | true =>
      cases hd : s.disk 0 with
      | file content time =>
        simp only [hd, Option.some.injEq] at h
        subst h
        exact .openFile hpc hd
      | _ => simp [hd] at h
    | false =>
      cases hd : s.disk 0 with
      | missing =>
        simp only [hd, Option.some.injEq] at h
        subst h
        exact .createFile hpc hd
      | _ => simp [hd] at h
  | holding fresh existed =>
    simp only [hpc] at h
    cases hd : s.disk 0 with
    | file content time =>
      simp only [hd, Option.some.injEq] at h
      subst h
      cases ha : call.planAddition fresh existed content time with
      | error category => exact .reject hpc hd ha
      | ok addition => exact .plan hpc hd ha
    | _ => simp [hd] at h
  | writing fresh content addition =>
    simp only [hpc, Option.some.injEq] at h
    subst h
    exact .write hpc
  | verifying fresh length hash loaded =>
    simp only [hpc] at h
    split_ifs at h with hshort
    simp only [Option.some.injEq] at h
    subst h
    cases hr : call.readBack fresh ⟨loaded⟩ length hash with
    | error category => exact .unverified hpc (by omega) hr
    | ok verified => exact .verify hpc (by omega) hr
  | returned | threw => simp [hpc] at h

/-- **Every step is one of the transitions.** -/
theorem moves_of_step {s s' : AddState} {event : AddEvent} (h : call.step s event = some s') :
    call.Moves s event s' := by
  cases event with
  | external number entry =>
    by_cases hheld : s.pc.isHolding = true ∧ number = 0
    · simp [step, hheld] at h
    · simp only [step, if_neg hheld, Option.some.injEq] at h
      subst h
      exact .external fun hh hn => hheld ⟨hh, hn⟩
  | load fault => exact call.moves_of_load h
  | fail category =>
    simp only [step] at h
    split_ifs at h with hmem
    cases h
    exact .fail hmem
  | failWrite bytes lastWriteUtc =>
    simp only [step] at h
    cases hpc : s.pc with
    | writing fresh content addition =>
      simp only [hpc] at h
      split_ifs at h with hzero
      · cases h
        subst hzero
        exact .failWriteNone hpc
      · cases h
        exact .failWriteSome hpc hzero
    | _ => simp [hpc] at h
  | proceed lastWriteUtc => exact call.moves_of_proceed h

end AddCall

/-! ### What is loaded -/

theorem loadSource_fault_none {P : Platform} {definition : KnownHostsSourceDefinition}
    {entry : DiskEntry} {fault : Option LoadFault}
    (h : (loadSource P definition entry fault).document.bind (·.fatalError) = none) :
    fault = none := by
  cases fault with
  | none => rfl
  | some fault => cases fault <;> cases h

theorem loadSource_file {P : Platform} {definition : KnownHostsSourceDefinition} {content : Bytes}
    {lastWriteUtc : ℕ} (h : content.length ≤ maximumFileBytes) :
    loadSource P definition (.file content lastWriteUtc) none =
      createSourceSnapshot P definition content lastWriteUtc := by
  unfold loadSource
  exact if_neg (by omega)

theorem load_getElem? (P : Platform) (definitions : List KnownHostsSourceDefinition) (disk : Disk)
    (number : ℕ) : (load P definitions disk).sources[number]? =
      (definitions[number]?).map fun definition => loadSource P definition (disk number) none := by
  unfold load
  rw [List.getElem?_mapIdx]

theorem load_cons (P : Platform) (definition : KnownHostsSourceDefinition)
    (definitions : List KnownHostsSourceDefinition) (disk : Disk) :
    (load P (definition :: definitions) disk).sources = loadSource P definition (disk 0) none ::
      (load P definitions fun number => disk (number + 1)).sources := by
  simp [load, List.mapIdx_cons]

theorem length_load (P : Platform) (definitions : List KnownHostsSourceDefinition) (disk : Disk) :
    (load P definitions disk).sources.length = definitions.length := by
  simp [load]

/-- What a load has read so far: every source comes from an entry of which `found` holds, with any
fault. -/
def ReadAs (P : Platform) (definitions : List KnownHostsSourceDefinition) (found : ℕ → DiskEntry → Prop)
    (loaded : List KnownHostsSourceSnapshot) : Prop :=
  ∀ (number : ℕ) source, loaded[number]? = some source → ∃ definition entry fault,
    definitions[number]? = some definition ∧ source = loadSource P definition entry fault ∧
      found number entry

section ReadAs

variable {P : Platform} {definitions : List KnownHostsSourceDefinition} {found : ℕ → DiskEntry → Prop}
  {loaded : List KnownHostsSourceSnapshot}

theorem readAs_nil : ReadAs P definitions found [] := by
  intro number source hs
  simp at hs

theorem ReadAs.mono {found' : ℕ → DiskEntry → Prop} (h : ReadAs P definitions found loaded)
    (hfound : ∀ number entry, found number entry → found' number entry) :
    ReadAs P definitions found' loaded := by
  intro number source hs
  obtain ⟨definition, entry, fault, hdef, heq, hentry⟩ := h number source hs
  exact ⟨definition, entry, fault, hdef, heq, hfound number entry hentry⟩

theorem ReadAs.append (h : ReadAs P definitions found loaded) {definition : KnownHostsSourceDefinition}
    (hnext : definitions[loaded.length]? = some definition) {entry : DiskEntry}
    (hentry : found loaded.length entry) (fault : Option LoadFault) :
    ReadAs P definitions found (loaded ++ [loadSource P definition entry fault]) := by
  intro number source hs
  by_cases hlt : number < loaded.length
  · rw [List.getElem?_append_left hlt] at hs
    exact h number source hs
  · have hle : number < (loaded ++ [loadSource P definition entry fault]).length :=
      (List.getElem?_eq_some_iff.mp hs).1
    obtain rfl : number = loaded.length := by simp at hle; omega
    rw [List.getElem?_concat_length] at hs
    cases hs
    exact ⟨definition, entry, fault, hnext, rfl, hentry⟩

/-- A source without a fatal error was read without a fault: it is what a load sees now. -/
theorem ReadAs.getElem?_eq {disk : Disk} (h : ReadAs P definitions found loaded)
    (hcomplete : definitions.length ≤ loaded.length) {number : ℕ}
    (hfound : ∀ entry, found number entry → entry = disk number)
    (hlegible : ∀ source, loaded[number]? = some source → source.document.bind (·.fatalError) = none) :
    loaded[number]? = (load P definitions disk).sources[number]? := by
  rw [load_getElem?]
  cases hs : loaded[number]? with
  | none =>
    have hlen : loaded.length ≤ number := List.getElem?_eq_none_iff.mp hs
    rw [List.getElem?_eq_none_iff.mpr (by omega)]
    rfl
  | some source =>
    obtain ⟨definition, entry, fault, hdef, rfl, hentry⟩ := h number source hs
    have hfault := loadSource_fault_none (hlegible _ hs)
    rw [hdef, hfault, hfound entry hentry]
    rfl

end ReadAs

/-- A load that has gone as far as `loaded` takes in one more file. -/
theorem take_load_append {definitions : List KnownHostsSourceDefinition} {disk : Disk}
    {loaded : List KnownHostsSourceSnapshot} {definition : KnownHostsSourceDefinition}
    (h : loaded = (load P definitions disk).sources.take loaded.length)
    (hnext : definitions[loaded.length]? = some definition) :
    loaded ++ [loadSource P definition (disk loaded.length) none] =
      (load P definitions disk).sources.take
        (loaded ++ [loadSource P definition (disk loaded.length) none]).length := by
  have hget : (load P definitions disk).sources[loaded.length]? =
      some (loadSource P definition (disk loaded.length) none) := by
    rw [load_getElem?, hnext]
    rfl
  rw [List.length_append, List.length_singleton, List.take_add_one, hget, ← h]
  rfl

theorem load_complete {definitions : List KnownHostsSourceDefinition} {disk : Disk}
    {loaded : List KnownHostsSourceSnapshot}
    (h : loaded = (load P definitions disk).sources.take loaded.length)
    (hcomplete : definitions.length ≤ loaded.length) :
    (⟨loaded⟩ : KnownHostsStoreSnapshot) = load P definitions disk := by
  rw [List.take_of_length_le (by rw [length_load]; exact hcomplete)] at h
  rw [h]

/-- A change by another program keeps the primary file as the other programs made it. -/
theorem update_zero_eq {disk : Disk} {untouched : DiskEntry} (h : disk 0 = untouched) (number : ℕ)
    (entry : DiskEntry) :
    Function.update disk number entry 0 = if number = 0 then entry else untouched := by
  by_cases hn : number = 0
  · subst hn
    simp
  · rw [Function.update_of_ne (Ne.symm hn), if_neg hn, h]

theorem sameSource_self (P : Platform) (source : KnownHostsSourceSnapshot) :
    sameSource P source source = true := by
  simp [sameSource]

namespace AddCall

variable {P : Platform} {call : AddCall P}

/-! ### The two blocks of checks -/

/-- **What the checks on the open file have seen.** -/
theorem planAddition_ok {fresh : KnownHostsStoreSnapshot} {existed : Bool} {content : Bytes}
    {lastWriteUtc : ℕ} {addition : Bytes}
    (h : call.planAddition fresh existed content lastWriteUtc = .ok addition) :
    ∃ first others, fresh.sources = first :: others ∧ content.length ≤ maximumFileBytes ∧
      primaryMatchesFresh first
        (createSourceSnapshot P first.definition content lastWriteUtc) existed = true ∧
      (∃ result, resolve call.hostToken call.presented
        (parse first.definition.sourceId content :: others.filterMap (·.document)) = .ok result ∧
          result.state = .unknown) ∧
      addition = buildAddition content call.hostToken call.presented ∧
      content.length + addition.length ≤ maximumFileBytes := by
  unfold planAddition at h
  cases hsources : fresh.sources with
  | nil => rw [hsources] at h; cases h
  | cons first others =>
    have hdocuments : (⟨createSourceSnapshot P first.definition content lastWriteUtc :: others⟩ :
        KnownHostsStoreSnapshot).documents =
          parse first.definition.sourceId content :: others.filterMap (·.document) := rfl
    obtain ⟨result, hresult, -⟩ := resolve_total call.hostToken call.presented
      (parse first.definition.sourceId content :: others.filterMap (·.document))
    simp only [hsources, hdocuments, hresult] at h
    split_ifs at h with hsize hmatch hstate hlimit
    cases h
    exact ⟨first, others, rfl, by omega, by simpa using hmatch, ⟨result, hresult, by simpa using hstate⟩,
      rfl, by omega⟩

/-- **When the read-back succeeds.** -/
theorem readBack_iff {fresh verified verified' : KnownHostsStoreSnapshot} {length : ℕ} {hash : Text} :
    call.readBack fresh verified length hash = .ok verified' ↔ verified' = verified ∧
      ∃ first others, verified.sources = first :: others ∧
        verified.sources.length = fresh.sources.length ∧ first.fileExists = true ∧
        first.length = length ∧ first.contentHash = hash ∧
        (∀ same ∈ others.zipWith (sameSource P) fresh.sources.tail, same = true) ∧
        ∃ result, resolve call.hostToken call.presented verified.documents = .ok result ∧
          result.state = .matching := by
  unfold readBack
  cases hsources : verified.sources with
  | nil => simp
  | cons first others =>
    have hany : ((others.zipWith (sameSource P) fresh.sources.tail).any fun same => !same) = true ↔
        ¬ ∀ same ∈ others.zipWith (sameSource P) fresh.sources.tail, same = true := by
      simp
    simp only [hany]
    split_ifs with hbad
    · constructor
      · intro h
        cases h
      · rintro ⟨-, first', others', heq, h1, h2, h3, h4, h5, -⟩
        cases heq
        simp_all
    · simp only [not_or, not_not, ne_eq, Bool.not_eq_false] at hbad
      obtain ⟨h1, h2, h3, h4, h5⟩ := hbad
      obtain ⟨result, hresult, -⟩ := resolve_total call.hostToken call.presented verified.documents
      rw [hresult]
      simp only
      split_ifs with hstate
      · simp_all
      · constructor
        · intro h
          cases h
          exact ⟨rfl, first, others, rfl, h1, h2, h3, h4, h5, result, rfl, by simpa using hstate⟩
        · rintro ⟨rfl, -⟩
          rfl

end AddCall

/-! ### A store to run the machine on -/

section Sample

/-- `CreateDefaultDefinitions` for the user `u`. -/
def sampleDefinitions : List KnownHostsSourceDefinition :=
  [⟨"user-known-hosts", "C:\\Users\\u\\.ssh\\known_hosts".toList⟩,
    ⟨"user-known-hosts2", "C:\\Users\\u\\.ssh\\known_hosts2".toList⟩,
    ⟨"system-known-hosts", "C:\\ProgramData\\ssh\\ssh_known_hosts".toList⟩,
    ⟨"system-known-hosts2", "C:\\ProgramData\\ssh\\ssh_known_hosts2".toList⟩]

/-- The path and the identity of a file that does not exist. -/
def missingText (directory name : String) : Text :=
  directory.toList ++ name.toList ++ "\n0\n0\n0\n\n\n".toList

/-- The identity of a store that has one of the four files, or none. -/
def identityText (primary : Text) : Bytes :=
  utf8Bytes ("user-known-hosts\n".toList ++ "C:\\USERS\\U\\.SSH\\".toList ++ "KNOWN_HOSTS\n".toList ++
    primary ++ "\n\n".toList ++
    "user-known-hosts2\n".toList ++ missingText "C:\\USERS\\U\\.SSH\\" "KNOWN_HOSTS2" ++
    "system-known-hosts\n".toList ++ missingText "C:\\PROGRAMDATA\\SSH\\" "SSH_KNOWN_HOSTS" ++
    "system-known-hosts2\n".toList ++ missingText "C:\\PROGRAMDATA\\SSH\\" "SSH_KNOWN_HOSTS2")

/-- The SHA-256 digests of the files and of the two identities. -/
def emptyDigest : Bytes :=
  [227, 176, 196, 66, 152, 252, 28, 20, 154, 251, 244, 200, 153, 111, 185, 36, 39, 174, 65, 228,
    100, 155, 147, 76, 164, 149, 153, 27, 120, 82, 184, 85]

def commentDigest : Bytes :=
  [241, 202, 172, 57, 249, 60, 212, 169, 98, 2, 212, 210, 208, 220, 61, 87, 129, 22, 167, 59,
    101, 74, 26, 117, 74, 13, 98, 245, 45, 37, 34, 243]

def wildDigest : Bytes :=
  [38, 38, 68, 116, 96, 210, 119, 0, 56, 161, 70, 251, 240, 32, 236, 24, 99, 7, 82, 31, 159, 49,
    37, 106, 197, 48, 75, 201, 66, 49, 164, 108]

def emptyStoreDigest : Bytes :=
  [99, 153, 97, 116, 239, 118, 149, 221, 28, 187, 143, 76, 224, 76, 169, 106, 169, 31, 173, 244,
    11, 3, 165, 220, 175, 26, 132, 61, 139, 235, 169, 39]

def fullStoreDigest : Bytes :=
  [240, 29, 5, 59, 91, 251, 18, 250, 68, 92, 129, 197, 136, 134, 153, 202, 250, 63, 143, 185,
    190, 2, 176, 157, 70, 19, 237, 26, 76, 201, 32, 213]

def storeDigests : List (Bytes × Bytes) :=
  [(sampleBlob, sampleDigest), ([], emptyDigest), (utf8Bytes "# c\n".toList, commentDigest),
    (utf8Bytes storedText.toList, storedDigest), (utf8Bytes "* k AAAAAWs=\n".toList, wildDigest),
    (identityText "0\n0\n0\n".toList, emptyStoreDigest),
    (identityText ("1\n13\n5\n" ++
      "34F1325707D0A9D3C372BFDD4C3D09934897D17DE0F93278F8A7DF8F038BA37D").toList, fullStoreDigest)]

def storePlatform : Platform := .ofDigests storeDigests []

def storeKey : PresentedHostKey storePlatform :=
  ⟨['k'], sampleBlob, fingerprintOf storePlatform sampleBlob, readKeyType_sampleBlob, rfl⟩

def emptyDisk : Disk := fun _ => .missing

/-- The primary file holds the key of the host `a`. -/
def fullDisk : Disk := Function.update emptyDisk 0 (.file (utf8Bytes storedText.toList) 5)

end Sample

end VT7.KnownHosts
