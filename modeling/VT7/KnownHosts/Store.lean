import VT7.KnownHosts.Resolver

/-!
# The four files and a snapshot of them

`OpenSshKnownHostsStore.cs`: a source definition names a file, loading a source gives a snapshot of
it, and the snapshot of the store has an identity, the hash of everything that was loaded.

A file is an entry of the disk at the moment it is loaded.  What can go wrong while it is read is a
`LoadFault`, chosen by the environment.
-/

namespace VT7.KnownHosts

open VT7.Dotnet

/-! ### Snapshots -/

/-- `KnownHostsSourceDefinition`. -/
structure KnownHostsSourceDefinition where
  sourceId : String
  path : Text

/-- `KnownHostsSourceSnapshot`; `fileExists` is its `Exists`, `lastWriteUtc` counts ticks. -/
structure KnownHostsSourceSnapshot where
  definition : KnownHostsSourceDefinition
  fileExists : Bool
  length : ℕ
  lastWriteUtc : ℕ
  contentHash : Text
  document : Option KnownHostsDocument

/-- The lines that one source contributes to the identity. -/
def identityLines (P : Platform) (source : KnownHostsSourceSnapshot) : Text :=
  source.definition.sourceId.toList ++ '\n' :: (P.toUpperInvariant source.definition.path ++ '\n' ::
    ((if source.fileExists then '1' else '0') :: '\n' :: (decimal source.length ++ '\n' ::
      (decimal source.lastWriteUtc ++ '\n' :: (source.contentHash ++ '\n' ::
        (((source.document.bind (·.fatalError)).getD "").toList ++ ['\n']))))))

/-- `KnownHostsStoreSnapshot`; its identity and its documents are computed from the sources. -/
structure KnownHostsStoreSnapshot where
  sources : List KnownHostsSourceSnapshot

namespace KnownHostsStoreSnapshot

def documents (snapshot : KnownHostsStoreSnapshot) : List KnownHostsDocument :=
  snapshot.sources.filterMap (·.document)

/-- `ComputeIdentity`. -/
def identity (P : Platform) (snapshot : KnownHostsStoreSnapshot) : Text :=
  hex (P.sha256 (utf8Bytes (snapshot.sources.flatMap (identityLines P))))

end KnownHostsStoreSnapshot

/-! ### Loading -/

/-- What is at a path. -/
inductive DiskEntry where
  | missing
  | directory
  | file (content : Bytes) (lastWriteUtc : ℕ)
  deriving DecidableEq

/-- An I/O failure, or a change that the load noticed, with the length and the time it saw. -/
inductive LoadFault where
  | readFailed
  | grewBeyondLimit (length lastWriteUtc : ℕ)
  | changedDuringLoad (length lastWriteUtc : ℕ)
  deriving DecidableEq

/-- `Missing`. -/
def missingSource (definition : KnownHostsSourceDefinition) : KnownHostsSourceSnapshot :=
  ⟨definition, false, 0, 0, [], none⟩

/-- `Failed`. -/
def failedSource (definition : KnownHostsSourceDefinition) (reason : String)
    (length lastWriteUtc : ℕ) : KnownHostsSourceSnapshot :=
  ⟨definition, true, length, lastWriteUtc, [], some ⟨definition.sourceId, [], some reason⟩⟩

/-- `CreateSourceSnapshot`. -/
def createSourceSnapshot (P : Platform) (definition : KnownHostsSourceDefinition) (content : Bytes)
    (lastWriteUtc : ℕ) : KnownHostsSourceSnapshot :=
  ⟨definition, true, content.length, lastWriteUtc, hex (P.sha256 content),
    some (parse definition.sourceId content)⟩

/-- `LoadSource`. -/
def loadSource (P : Platform) (definition : KnownHostsSourceDefinition) (entry : DiskEntry)
    (fault : Option LoadFault) : KnownHostsSourceSnapshot :=
  match fault with
  | some .readFailed => failedSource definition "source-read-failed" 0 0
  | some (.grewBeyondLimit length lastWriteUtc) =>
    failedSource definition "file-size-limit" length lastWriteUtc
  | some (.changedDuringLoad length lastWriteUtc) =>
    failedSource definition "source-changed-during-load" length lastWriteUtc
  | none =>
    match entry with
    | .missing => missingSource definition
    | .directory => failedSource definition "source-not-file" 0 0
    | .file content lastWriteUtc =>
      if maximumFileBytes < content.length then
        failedSource definition "file-size-limit" content.length lastWriteUtc
      else createSourceSnapshot P definition content lastWriteUtc

@[simp] theorem loadSource_definition (P : Platform) (definition : KnownHostsSourceDefinition)
    (entry : DiskEntry) (fault : Option LoadFault) :
    (loadSource P definition entry fault).definition = definition := by
  unfold loadSource
  split
  · rfl
  · rfl
  · rfl
  · split
    · rfl
    · rfl
    · split_ifs <;> rfl

end VT7.KnownHosts
