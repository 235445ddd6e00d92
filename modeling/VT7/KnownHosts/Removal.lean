import VT7.KnownHosts.Identity

/-!
# Removing records from the primary file

`OpenSshKnownHostsWriter.RemovePrimaryUserRecords` as a machine, in the manner of the one for adding.
The call keeps the primary file open, shared for reading and deletion: no other program can write
into that file, but it can put another file in its place, so that the file under the name can change
at any time.  The retained lines go to a temporary file; `File.Replace` puts it under the name and
what was there under the name of the backup.

Other programs change the four sources only: the temporary file is the call's own, and the backup
changes only in calls of the writer, one at a time behind the mutex.
-/

namespace VT7.KnownHosts

open VT7.Dotnet VT7.Lib

/-! ### The selected lines -/

/-- The loop of `ValidateRemovalSelection`: how many of the selected lines were found. -/
def countSelected (P : Platform) (hostToken : Text) (selected : List ℤ) :
    ℕ → List KnownHostsLine → Except String ℕ
  | found, [] => .ok found
  | found, line :: lines =>
    if (line.lineNumber : ℤ) ∉ selected then countSelected P hostToken selected found lines
    else if line.kind ≠ .record then .error "removal-selection"
    else
      match line.record with
      | none => .error "removal-selection"
      | some record =>
        if record.marker ≠ .none then .error "removal-selection"
        else
          match hostMatches P hostToken record.hostField with
          | .error message => .error message
          | .ok false => .error "removal-selection"
          | .ok true => countSelected P hostToken selected (found + 1) lines

/-- `ValidateRemovalSelection`. -/
def validateRemovalSelection (P : Platform) (document : KnownHostsDocument) (hostToken : Text)
    (selected : List ℤ) : Except String Unit :=
  match countSelected P hostToken selected 0 document.lines with
  | .error category => .error category
  | .ok found => if found ≠ selected.length then .error "removal-selection" else .ok ()

/-- The bytes of the lines that are not selected. -/
def retainedBytes (document : KnownHostsDocument) (selected : List ℤ) : Bytes :=
  (document.lines.filter fun line => (line.lineNumber : ℤ) ∉ selected).flatMap (·.rawBytes)

/-! ### The call -/

/-- The arguments of `RemovePrimaryUserRecords`. -/
structure RemoveCall (P : Platform) where
  reviewedSnapshot : KnownHostsStoreSnapshot
  hostToken : Text
  selectedLines : List ℤ

/-- Where the call is. -/
inductive RemovePc where
  | checking
  | waiting
  | loading (loaded : List KnownHostsSourceSnapshot)
  | preparing (fresh : KnownHostsStoreSnapshot)
  | opening (fresh : KnownHostsStoreSnapshot)
  /-- The primary file is open and has been read. -/
  | holding (fresh : KnownHostsStoreSnapshot) (original : Bytes)
  | building (fresh : KnownHostsStoreSnapshot) (original retained : Bytes)
  | rechecking (fresh : KnownHostsStoreSnapshot) (original retained : Bytes)
    (loaded : List KnownHostsSourceSnapshot)
  | replacing (fresh : KnownHostsStoreSnapshot) (original retained : Bytes)
  | verifying (fresh : KnownHostsStoreSnapshot) (original retained : Bytes)
    (loaded : List KnownHostsSourceSnapshot)
  | securing (verified : KnownHostsStoreSnapshot) (original retained : Bytes)
  | returned (verified : KnownHostsStoreSnapshot) (original retained : Bytes)
  | threw (category : String)

/-- The call and the files; `untouched` and `written` are as for adding. -/
structure RemoveState where
  disk : Disk
  backup : DiskEntry
  untouched : DiskEntry
  written : Option (DiskEntry × DiskEntry)
  pc : RemovePc

inductive RemoveEvent where
  | external (number : ℕ) (entry : DiskEntry)
  /-- Another call of the writer replaces the backup. -/
  | externalBackup (entry : DiskEntry)
  | load (fault : Option LoadFault)
  | fail (category : String)
  /-- `File.Replace` fails when the primary file is already under the name of the backup. -/
  | failReplace
  | proceed (lastWriteUtc : ℕ)

/-- The event is a step of the call itself. -/
def RemoveEvent.isOwn : RemoveEvent → Bool
  | .external _ _ | .externalBackup _ => false
  | _ => true

/-- The call is between the acquisition and the release of the mutex. -/
def RemovePc.inMutex : RemovePc → Bool
  | .checking | .waiting | .returned _ _ _ | .threw _ => false
  | _ => true

/-- The categories of `SecurityMismatch`, behind a first part. -/
def securityFailures (first : String) : List String :=
  ["owner", "group", "access-flags", "access-entries"].map (first ++ ·)

/-- How an access can fail at each place. -/
def RemovePc.failures : RemovePc → List String
  | .waiting => ["writer-lock-timeout"]
  | .preparing _ => ["primary-path", "reparse-directory", "directory-path-is-file",
      "profile-directory-missing", "unsafe-primary-file", "unsafe-backup-file", "filesystem"]
  | .opening _ => ["file-size-limit", "filesystem"]
  | .holding _ _ => ["filesystem"]
  | .building _ _ _ => "filesystem" :: securityFailures "temporary-security-"
  | .replacing _ _ _ => ["unsafe-backup-file", "filesystem"]
  | .verifying _ _ _ _ => ["filesystem"]
  | .securing _ _ _ => "filesystem" :: securityFailures "read-back-security-"
  | _ => []

/-- The category of a failed block of checks, or the place behind it. -/
def RemovePc.orThrow : Except String RemovePc → RemovePc
  | .error category => .threw category
  | .ok pc => pc

namespace RemoveCall

variable {P : Platform} (call : RemoveCall P)

def definitions : List KnownHostsSourceDefinition :=
  call.reviewedSnapshot.sources.map (·.definition)

/-- The checks of the arguments. -/
def checks : Except String Unit :=
  if call.reviewedSnapshot.sources.length ≠ 4 ∨
      call.definitions.head?.map (·.sourceId) ≠ some "user-known-hosts" then .error "source-layout"
  else if call.selectedLines.length = 0 ∨ maximumRecords < call.selectedLines.length ∨
      call.selectedLines.any (· ≤ 0) ∨ ¬ call.selectedLines.Nodup then .error "removal-selection"
  else
    match call.reviewedSnapshot.sources.head? with
    | none => .error "source-layout"
    | some first =>
      match first.document with
      | none => .error "primary-unavailable"
      | some reviewed =>
        if first.fileExists = false ∨ reviewed.fatalError ≠ none then .error "primary-unavailable"
        else validateRemovalSelection P reviewed call.hostToken call.selectedLines

/-- The checks on the open file: the bytes to retain. -/
def select (fresh : KnownHostsStoreSnapshot) (original : Bytes) (lastWriteUtc : ℕ) :
    Except String Bytes :=
  match fresh.sources with
  | [] => .error "source-layout"
  | first :: _ =>
    let current := createSourceSnapshot P first.definition original lastWriteUtc
    if !primaryMatchesFresh first current true then .error "primary-generation-changed"
    else
      let document := parse first.definition.sourceId original
      if document.fatalError ≠ none then .error "primary-unreadable"
      else
        match validateRemovalSelection P document call.hostToken call.selectedLines with
        | .error category => .error category
        | .ok _ => .ok (retainedBytes document call.selectedLines)

/-- The last check in front of `File.Replace`. -/
def recheck (finalSource : KnownHostsStoreSnapshot) (original : Bytes) : Except String Unit :=
  match finalSource.sources with
  | [] => .error "store-generation-changed"
  | first :: _ =>
    if finalSource.identity P ≠ call.reviewedSnapshot.identity P ∨
        first.contentHash ≠ hex (P.sha256 original) then .error "store-generation-changed"
    else .ok ()

/-- `HashFile`, of the backup. -/
def hashFile (P : Platform) : DiskEntry → Except String Text
  | .file content _ => .ok (hex (P.sha256 content))
  | _ => .error "filesystem"

/-- The checks on what was read back. -/
def readBack (P : Platform) (fresh verified : KnownHostsStoreSnapshot) (backup : DiskEntry)
    (original retained : Bytes) : Except String KnownHostsStoreSnapshot :=
  match verified.sources with
  | [] => .error "read-back-generation"
  | first :: others =>
    if first.fileExists = false ∨ first.length ≠ retained.length ∨
        first.contentHash ≠ hex (P.sha256 retained) ∨
        (others.zipWith (sameSource P) fresh.sources.tail).any (fun same => !same) = true then
      .error "read-back-generation"
    else
      match hashFile P backup with
      | .error category => .error category
      | .ok hash =>
        if hash ≠ hex (P.sha256 original) then .error "read-back-generation" else .ok verified

/-- The code goes on. -/
def proceed (s : RemoveState) (lastWriteUtc : ℕ) : Option RemoveState :=
  match s.pc with
  | .checking => some { s with pc := .orThrow (call.checks.map fun _ => .waiting) }
  | .waiting => some { s with pc := .loading [] }
  | .loading loaded =>
    if loaded.length < call.definitions.length then none
    else if (⟨loaded⟩ : KnownHostsStoreSnapshot).identity P ≠ call.reviewedSnapshot.identity P then
      some { s with pc := .threw "store-generation-changed" }
    else some { s with pc := .preparing ⟨loaded⟩ }
  | .preparing fresh =>
    some { s with pc := if (s.disk 0).isFile then .opening fresh else .threw "primary-unavailable" }
  | .opening fresh =>
    match s.disk 0 with
    | .file original _ =>
      some { s with pc := if maximumFileBytes < original.length then .threw "file-size-limit"
        else .holding fresh original }
    | _ => none
  | .holding fresh original =>
    some { s with pc := .orThrow ((call.select fresh original lastWriteUtc).map fun retained =>
      .building fresh original retained) }
  | .building fresh original retained =>
    some { s with pc := .rechecking fresh original retained [] }
  | .rechecking fresh original retained loaded =>
    if loaded.length < call.definitions.length then none
    else some { s with pc := .orThrow ((call.recheck ⟨loaded⟩ original).map fun _ =>
      .replacing fresh original retained) }
  | .replacing fresh original retained =>
    match s.disk 0 with
    | .file _ _ =>
      some ⟨Function.update s.disk 0 (.file retained lastWriteUtc), s.disk 0, s.untouched,
        some (s.disk 0, .file retained lastWriteUtc), .verifying fresh original retained []⟩
    | _ => none
  | .verifying fresh original retained loaded =>
    if loaded.length < call.definitions.length then none
    else some { s with pc := .orThrow ((readBack P fresh ⟨loaded⟩ s.backup original
      retained).map fun verified => .securing verified original retained) }
  | .securing verified original retained =>
    some { s with pc := .returned verified original retained }
  | .returned _ _ _ => none
  | .threw _ => none

/-- **A step of `RemovePrimaryUserRecords`**, or of another program. -/
def step (s : RemoveState) : RemoveEvent → Option RemoveState
  | .external number entry =>
    some { s with disk := Function.update s.disk number entry,
                  untouched := if number = 0 then entry else s.untouched }
  | .externalBackup entry => if s.pc.inMutex then none else some { s with backup := entry }
  | .load fault =>
    match s.pc with
    | .loading loaded =>
      (loadNext P call.definitions s.disk fault loaded).map fun loaded =>
        { s with pc := .loading loaded }
    | .rechecking fresh original retained loaded =>
      (loadNext P call.definitions s.disk fault loaded).map fun loaded =>
        { s with pc := .rechecking fresh original retained loaded }
    | .verifying fresh original retained loaded =>
      (loadNext P call.definitions s.disk fault loaded).map fun loaded =>
        { s with pc := .verifying fresh original retained loaded }
    | _ => none
  | .fail category => if category ∈ s.pc.failures then some { s with pc := .threw category } else none
  | .failReplace =>
    match s.pc with
    | .replacing _ _ _ =>
      some ⟨Function.update s.disk 0 .missing, s.disk 0, s.untouched, some (s.disk 0, .missing),
        .threw "filesystem"⟩
    | _ => none
  | .proceed lastWriteUtc => call.proceed s lastWriteUtc

/-! ### What a step can do -/

/-- The transitions of the machine, one by one. -/
inductive Moves : RemoveState → RemoveEvent → RemoveState → Prop
  | external {s : RemoveState} {number : ℕ} {entry : DiskEntry} :
    Moves s (.external number entry) { s with
      disk := Function.update s.disk number entry
      untouched := if number = 0 then entry else s.untouched }
  | externalBackup {s : RemoveState} {entry : DiskEntry} (outside : s.pc.inMutex = false) :
    Moves s (.externalBackup entry) { s with backup := entry }
  | load {s : RemoveState} {fault loaded definition} (pc : s.pc = .loading loaded)
    (next : call.definitions[loaded.length]? = some definition) :
    Moves s (.load fault) { s with
      pc := .loading (loaded ++ [loadSource P definition (s.disk loaded.length) fault]) }
  | loadFinal {s : RemoveState} {fault fresh original retained loaded definition}
    (pc : s.pc = .rechecking fresh original retained loaded)
    (next : call.definitions[loaded.length]? = some definition) :
    Moves s (.load fault) { s with
      pc := .rechecking fresh original retained
        (loaded ++ [loadSource P definition (s.disk loaded.length) fault]) }
  | reload {s : RemoveState} {fault fresh original retained loaded definition}
    (pc : s.pc = .verifying fresh original retained loaded)
    (next : call.definitions[loaded.length]? = some definition) :
    Moves s (.load fault) { s with
      pc := .verifying fresh original retained
        (loaded ++ [loadSource P definition (s.disk loaded.length) fault]) }
  | fail {s : RemoveState} {category : String} (possible : category ∈ s.pc.failures) :
    Moves s (.fail category) { s with pc := .threw category }
  | failReplace {s : RemoveState} {fresh original retained}
    (pc : s.pc = .replacing fresh original retained) :
    Moves s .failReplace ⟨Function.update s.disk 0 .missing, s.disk 0, s.untouched,
      some (s.disk 0, .missing), .threw "filesystem"⟩
  | check {s : RemoveState} {lastWriteUtc} (pc : s.pc = .checking) :
    Moves s (.proceed lastWriteUtc) { s with pc := .orThrow (call.checks.map fun _ => .waiting) }
  | acquire {s : RemoveState} {lastWriteUtc} (pc : s.pc = .waiting) :
    Moves s (.proceed lastWriteUtc) { s with pc := .loading [] }
  | stale {s : RemoveState} {lastWriteUtc loaded} (pc : s.pc = .loading loaded)
    (complete : call.definitions.length ≤ loaded.length)
    (differs : (⟨loaded⟩ : KnownHostsStoreSnapshot).identity P ≠ call.reviewedSnapshot.identity P) :
    Moves s (.proceed lastWriteUtc) { s with pc := .threw "store-generation-changed" }
  | current {s : RemoveState} {lastWriteUtc loaded} (pc : s.pc = .loading loaded)
    (complete : call.definitions.length ≤ loaded.length)
    (same : (⟨loaded⟩ : KnownHostsStoreSnapshot).identity P = call.reviewedSnapshot.identity P) :
    Moves s (.proceed lastWriteUtc) { s with pc := .preparing ⟨loaded⟩ }
  | prepare {s : RemoveState} {lastWriteUtc fresh} (pc : s.pc = .preparing fresh) :
    Moves s (.proceed lastWriteUtc) { s with
      pc := if (s.disk 0).isFile then .opening fresh else .threw "primary-unavailable" }
  | openFile {s : RemoveState} {lastWriteUtc fresh original time} (pc : s.pc = .opening fresh)
    (file : s.disk 0 = .file original time) :
    Moves s (.proceed lastWriteUtc) { s with
      pc := if maximumFileBytes < original.length then .threw "file-size-limit"
        else .holding fresh original }
  | select {s : RemoveState} {lastWriteUtc fresh original} (pc : s.pc = .holding fresh original) :
    Moves s (.proceed lastWriteUtc) { s with
      pc := .orThrow ((call.select fresh original lastWriteUtc).map fun retained =>
        .building fresh original retained) }
  | build {s : RemoveState} {lastWriteUtc fresh original retained}
    (pc : s.pc = .building fresh original retained) :
    Moves s (.proceed lastWriteUtc) { s with pc := .rechecking fresh original retained [] }
  | recheck {s : RemoveState} {lastWriteUtc fresh original retained loaded}
    (pc : s.pc = .rechecking fresh original retained loaded)
    (complete : call.definitions.length ≤ loaded.length) :
    Moves s (.proceed lastWriteUtc) { s with
      pc := .orThrow ((call.recheck ⟨loaded⟩ original).map fun _ =>
        .replacing fresh original retained) }
  | replace {s : RemoveState} {lastWriteUtc fresh original retained}
    (pc : s.pc = .replacing fresh original retained) (file : (s.disk 0).isFile = true) :
    Moves s (.proceed lastWriteUtc) ⟨Function.update s.disk 0 (.file retained lastWriteUtc),
      s.disk 0, s.untouched, some (s.disk 0, .file retained lastWriteUtc),
      .verifying fresh original retained []⟩
  | verify {s : RemoveState} {lastWriteUtc fresh original retained loaded}
    (pc : s.pc = .verifying fresh original retained loaded)
    (complete : call.definitions.length ≤ loaded.length) :
    Moves s (.proceed lastWriteUtc) { s with
      pc := .orThrow ((readBack P fresh ⟨loaded⟩ s.backup original retained).map fun verified =>
        .securing verified original retained) }
  | secure {s : RemoveState} {lastWriteUtc verified original retained}
    (pc : s.pc = .securing verified original retained) :
    Moves s (.proceed lastWriteUtc) { s with pc := .returned verified original retained }

theorem moves_of_load {s s' : RemoveState} {fault : Option LoadFault}
    (h : call.step s (.load fault) = some s') : call.Moves s (.load fault) s' := by
  unfold step at h
  cases hpc : s.pc with
  | loading loaded =>
    simp only [hpc, loadNext, Option.map_map, Option.map_eq_some_iff, Function.comp] at h
    obtain ⟨definition, hnext, rfl⟩ := h
    exact .load hpc hnext
  | rechecking fresh original retained loaded =>
    simp only [hpc, loadNext, Option.map_map, Option.map_eq_some_iff, Function.comp] at h
    obtain ⟨definition, hnext, rfl⟩ := h
    exact .loadFinal hpc hnext
  | verifying fresh original retained loaded =>
    simp only [hpc, loadNext, Option.map_map, Option.map_eq_some_iff, Function.comp] at h
    obtain ⟨definition, hnext, rfl⟩ := h
    exact .reload hpc hnext
  | _ => simp [hpc] at h

theorem moves_of_proceed {s s' : RemoveState} {lastWriteUtc : ℕ}
    (h : call.step s (.proceed lastWriteUtc) = some s') :
    call.Moves s (.proceed lastWriteUtc) s' := by
  change call.proceed s lastWriteUtc = some s' at h
  unfold proceed at h
  cases hpc : s.pc with
  | checking =>
    simp only [hpc, Option.some.injEq] at h
    exact h ▸ .check hpc
  | waiting =>
    simp only [hpc, Option.some.injEq] at h
    exact h ▸ .acquire hpc
  | loading loaded =>
    simp only [hpc] at h
    split_ifs at h with hshort hdiffers
    · cases h
      exact .stale hpc (by omega) hdiffers
    · cases h
      exact .current hpc (by omega) (by simpa using hdiffers)
  | preparing fresh =>
    simp only [hpc, Option.some.injEq] at h
    exact h ▸ .prepare hpc
  | opening fresh =>
    simp only [hpc] at h
    cases hd : s.disk 0 with
    | file original time =>
      simp only [hd, Option.some.injEq] at h
      exact h ▸ .openFile hpc hd
    | _ => simp [hd] at h
  | holding fresh original =>
    simp only [hpc, Option.some.injEq] at h
    exact h ▸ .select hpc
  | building fresh original retained =>
    simp only [hpc, Option.some.injEq] at h
    exact h ▸ .build hpc
  | rechecking fresh original retained loaded =>
    simp only [hpc] at h
    by_cases hshort : loaded.length < call.definitions.length
    · rw [if_pos hshort] at h
      cases h
    · rw [if_neg hshort, Option.some.injEq] at h
      exact h ▸ .recheck hpc (by omega)
  | replacing fresh original retained =>
    simp only [hpc] at h
    cases hd : s.disk 0 with
    | file content time =>
      simp only [hd, Option.some.injEq] at h
      rw [← h, ← hd]
      exact .replace hpc (by rw [hd]; rfl)
    | _ => simp [hd] at h
  | verifying fresh original retained loaded =>
    simp only [hpc] at h
    by_cases hshort : loaded.length < call.definitions.length
    · rw [if_pos hshort] at h
      cases h
    · rw [if_neg hshort, Option.some.injEq] at h
      exact h ▸ .verify hpc (by omega)
  | securing verified original retained =>
    simp only [hpc, Option.some.injEq] at h
    exact h ▸ .secure hpc
  | returned | threw => simp [hpc] at h

/-- **Every step is one of the transitions.** -/
theorem moves_of_step {s s' : RemoveState} {event : RemoveEvent}
    (h : call.step s event = some s') : call.Moves s event s' := by
  cases event with
  | external number entry =>
    simp only [step, Option.some.injEq] at h
    exact h ▸ .external
  | externalBackup entry =>
    simp only [step] at h
    by_cases hin : s.pc.inMutex = true
    · rw [if_pos hin] at h
      cases h
    · rw [if_neg hin, Option.some.injEq] at h
      exact h ▸ .externalBackup (by simpa using hin)
  | load fault => exact call.moves_of_load h
  | fail category =>
    simp only [step] at h
    split_ifs at h with hmem
    cases h
    exact .fail hmem
  | failReplace =>
    simp only [step] at h
    cases hpc : s.pc with
    | replacing fresh original retained =>
      simp only [hpc, Option.some.injEq] at h
      exact h ▸ .failReplace hpc
    | _ => simp [hpc] at h
  | proceed lastWriteUtc => exact call.moves_of_proceed h

/-! ### The blocks of checks -/

/-- **What the checks on the open file have seen.** -/
theorem select_ok {fresh : KnownHostsStoreSnapshot} {original retained : Bytes} {lastWriteUtc : ℕ}
    (h : call.select fresh original lastWriteUtc = .ok retained) :
    ∃ first others, fresh.sources = first :: others ∧
      primaryMatchesFresh first
        (createSourceSnapshot P first.definition original lastWriteUtc) true = true ∧
      retained = retainedBytes (parse first.definition.sourceId original) call.selectedLines := by
  unfold select at h
  cases hsources : fresh.sources with
  | nil => rw [hsources] at h; cases h
  | cons first others =>
    simp only [hsources] at h
    split_ifs at h with hmatch hfatal
    refine ⟨first, others, rfl, by simpa using hmatch, ?_⟩
    cases hv : validateRemovalSelection P (parse first.definition.sourceId original) call.hostToken
      call.selectedLines with
    | error category => rw [hv] at h; cases h
    | ok _ =>
      rw [hv] at h
      cases h
      rfl

/-- **What the read-back has seen.** -/
theorem readBack_ok {fresh verified verified' : KnownHostsStoreSnapshot} {backup : DiskEntry}
    {original retained : Bytes}
    (h : readBack P fresh verified backup original retained = .ok verified') :
    verified' = verified ∧ (∃ first others, verified.sources = first :: others ∧
      first.fileExists = true ∧ first.contentHash = hex (P.sha256 retained)) ∧
      ∃ content lastWriteUtc, backup = .file content lastWriteUtc ∧
        hex (P.sha256 content) = hex (P.sha256 original) := by
  unfold readBack at h
  cases hsources : verified.sources with
  | nil => rw [hsources] at h; cases h
  | cons first others =>
    simp only [hsources] at h
    split_ifs at h with hbad
    simp only [not_or, not_not, ne_eq, Bool.not_eq_false] at hbad
    cases hb : backup with
    | missing | directory => rw [hb] at h; cases h
    | file content time =>
      simp only [hb, hashFile] at h
      split_ifs at h with hhash
      cases h
      exact ⟨rfl, ⟨first, others, rfl, hbad.1, hbad.2.2.1⟩, content, time, rfl, by simpa using hhash⟩

end RemoveCall

end VT7.KnownHosts
