import VT7.Shim.Protocol
import VT7.Shim.Frames

/-!
The two halves of the protocol agree: what the shim writes the host parses field by field, and what
the host writes the shim reads, and neither side accepts a frame that is cut short or goes on.
-/

namespace VT7.Shim

open VT7.Lib VT7.Lib.Wire VT7.Dotnet

/-! ### Counted text -/

/-- A counted string on the wire: the number of units and the units. -/
def stringBytes (t : Utf16) : Bytes :=
  leBytes 4 (UInt32.ofNat t.length).toBitVec ++ t.flatMap unitBytes

/-- A count that fits its field is read back as it is. -/
lemma toNat_ofNat_of_le {n : ℕ} (h : n ≤ 32767) : (UInt32.ofNat n).toNat = n := by
  rw [UInt32.toNat_ofNat']
  exact Nat.mod_eq_of_lt (by omega)

lemma ofNat_le_of_le {n m : ℕ} (h : n ≤ m) (hm : m ≤ 32767) : UInt32.ofNat n ≤ UInt32.ofNat m := by
  rw [UInt32.le_iff_toNat_le, toNat_ofNat_of_le (h.trans hm), toNat_ofNat_of_le hm]
  exact h

lemma ofNat_pos {n : ℕ} (h : 0 < n) (hn : n ≤ 32767) : 0 < UInt32.ofNat n := by
  rw [UInt32.lt_iff_toNat_lt, toNat_ofNat_of_le hn]
  exact h

namespace SshShimProtocol

lemma reads_readString {t : Utf16} (h : t.length ≤ 32767) :
    Reads readString (stringBytes t) (replaceLone t) := by
  have hlen : (t.flatMap unitBytes).length = (UInt32.ofNat t.length).toNat * 2 := by
    rw [unitBytes_flatMap_length, toNat_ofNat_of_le h]
    ring
  have hbytes := reads_readExact ⟨t.flatMap unitBytes, hlen⟩
  have hcount : decide (UInt32.ofNat t.length ≤ 32767) = true :=
    decide_eq_true (ofNat_le_of_le h le_rfl)
  refine Reads.of_eq ((reads_readUInt32 (UInt32.ofNat t.length)).bind
    (Reads.require_bind hcount hbytes.bind_pure)) rfl ?_
  rw [unicodeString, unitsOf_unitBytes]

lemma writeString_eq_ok {t : Utf16} {b : Bytes} (h : writeString t = .ok b) :
    t.length ≤ 32767 ∧ b = stringBytes (replaceLone t) := by
  unfold writeString at h
  split at h
  · cases h
  · next hbound =>
    have hlen : t.length ≤ 32767 := by
      by_contra hgt
      exact hbound (by simp [Nat.lt_of_not_le hgt])
    cases h
    refine ⟨hlen, ?_⟩
    rw [stringBytes, replaceLone_length]
    rfl

end SshShimProtocol

namespace Program

lemma reads_u8 (v : UInt8) : Reads Reader.u8 [v] v := by
  have h := SshShimProtocol.reads_word (n := 1) (e := "truncated protocol frame") UInt8.ofBitVec v.toBitVec
  rw [SshShimProtocol.leBytes_one] at h
  exact h

lemma reads_u16 (v : UInt16) : Reads Reader.u16 (leBytes 2 v.toBitVec) v :=
  SshShimProtocol.reads_word (n := 2) UInt16.ofBitVec v.toBitVec

lemma reads_u32 (v : UInt32) : Reads Reader.u32 (leBytes 4 v.toBitVec) v :=
  SshShimProtocol.reads_word (n := 4) UInt32.ofBitVec v.toBitVec

lemma reads_u64 (v : UInt64) : Reads Reader.u64 (leBytes 8 v.toBitVec) v :=
  SshShimProtocol.reads_word (n := 8) UInt64.ofBitVec v.toBitVec

lemma reads_bytes {n : ℕ} (w : Block UInt8 n) : Reads (Reader.bytes n) w.1 w := Reads.take w

lemma reads_string {t : Utf16} (h : t.length ≤ 32767) : Reads Reader.string (stringBytes t) t := by
  have hlen : (t.flatMap unitBytes).length = (UInt32.ofNat t.length).toNat * 2 := by
    rw [unitBytes_flatMap_length, toNat_ofNat_of_le h]
    ring
  have hbytes := reads_bytes ⟨t.flatMap unitBytes, hlen⟩
  have hcount : decide (UInt32.ofNat t.length ≤ 32767) = true :=
    decide_eq_true (ofNat_le_of_le h le_rfl)
  refine Reads.of_eq ((reads_u32 (UInt32.ofNat t.length)).bind
    (Reads.require_bind hcount hbytes.bind_pure)) rfl ?_
  rw [unitsOf_unitBytes]

end Program

/-! ### Requests -/

namespace Program

/-- The request's bytes before its MAC, as one word. -/
def requestWord (facts : Facts) (challenge : Challenge) : Bytes :=
  [Message.request.value] ++ leBytes 2 protocolVersion.toBitVec ++ leBytes 4 facts.pid.toBitVec ++
    leBytes 8 facts.creationTime.toBitVec ++ facts.clientNonce.1 ++ challenge.serverNonce.1 ++
    leBytes 8 challenge.generation.toBitVec ++ leBytes 4 facts.inputFlags.toBitVec ++
    leBytes 4 facts.outputFlags.toBitVec ++ leBytes 4 facts.errorFlags.toBitVec ++
    leBytes 4 (UInt32.ofNat facts.consoleProcesses.length).toBitVec ++
    (facts.consoleProcesses.flatMap fun p => leBytes 4 p.toBitVec) ++
    stringBytes facts.currentDirectory ++ leBytes 4 (UInt32.ofNat facts.arguments.length).toBitVec ++
    facts.arguments.flatMap stringBytes

/-- The bounds that `RunShim` checks while it builds a request. -/
structure Facts.Bounded (facts : Facts) : Prop where
  processes : 0 < facts.consoleProcesses.length ∧ facts.consoleProcesses.length ≤ 256
  directory : 0 < facts.currentDirectory.length ∧ facts.currentDirectory.length ≤ 32767
  count : facts.arguments.length ≤ 256
  arguments : ∀ a ∈ facts.arguments, a.length ≤ 32767

lemma appendString_eq_ok {bytes b : Bytes} {t : Utf16} :
    appendString bytes t = .ok b ↔ t.length ≤ 32767 ∧ b = bytes ++ stringBytes t := by
  unfold appendString
  rw [check_bind_eq_ok, decide_eq_true_eq, stringBytes, ← List.append_assoc]
  exact and_congr_right fun _ => ⟨fun h => (Except.ok.inj h).symm, fun h => congrArg Except.ok h.symm⟩

lemma appendString_bind_eq_ok {bytes a : Bytes} {t : Utf16} {f : Bytes → Except String Bytes} :
    (appendString bytes t >>= f) = .ok a ↔ t.length ≤ 32767 ∧ f (bytes ++ stringBytes t) = .ok a := by
  rw [except_bind_eq_ok]
  constructor
  · rintro ⟨b, hb, hf⟩
    obtain ⟨hlen, rfl⟩ := appendString_eq_ok.mp hb
    exact ⟨hlen, hf⟩
  · rintro ⟨hlen, hf⟩
    exact ⟨_, appendString_eq_ok.mpr ⟨hlen, rfl⟩, hf⟩

lemma foldl_appendU32 (bytes : Bytes) (ps : List UInt32) :
    ps.foldl appendU32 bytes = bytes ++ ps.flatMap fun p => leBytes 4 p.toBitVec := by
  induction ps generalizing bytes with
  | nil => simp
  | cons p ps ih => rw [List.foldl_cons, ih, appendU32, List.flatMap_cons, List.append_assoc]

lemma foldlM_appendString {ts : List Utf16} {bytes b : Bytes} :
    ts.foldlM appendString bytes = .ok b ↔
      (∀ t ∈ ts, t.length ≤ 32767) ∧ b = bytes ++ ts.flatMap stringBytes := by
  induction ts generalizing bytes with
  | nil => simp [pure, Except.pure, eq_comm]
  | cons t ts ih =>
    rw [List.foldlM_cons, appendString_bind_eq_ok, ih, List.forall_mem_cons, List.flatMap_cons,
      List.append_assoc, and_assoc]

/-- The shim builds a request exactly under its bounds, and then the bytes are those of the word. -/
theorem canonicalRequest_eq_ok_iff {facts : Facts} {challenge : Challenge} {b : Bytes} :
    canonicalRequest facts challenge = .ok b ↔
      facts.Bounded ∧ b = requestWord facts challenge := by
  unfold canonicalRequest
  simp only [check_bind_eq_ok, appendString_bind_eq_ok, foldlM_appendString, foldl_appendU32,
    Bool.and_eq_true, decide_eq_true_eq]
  constructor
  · rintro ⟨hp, hd, hdl, hc, ha, rfl⟩
    exact ⟨⟨⟨Nat.pos_of_ne_zero hp.1, hp.2⟩, ⟨Nat.pos_of_ne_zero hd.1, hdl⟩, hc, ha⟩, rfl⟩
  · rintro ⟨h, rfl⟩
    exact ⟨⟨h.processes.1.ne', h.processes.2⟩, ⟨h.directory.1.ne', Nat.lt_succ_of_le h.directory.2⟩,
      h.directory.2, h.count, h.arguments, rfl⟩

end Program

namespace SshShimProtocol

/-- The request that the host reads out of the shim's bytes. -/
def received (facts : Program.Facts) (challenge : Program.Challenge) (mac : Mac) (canonical : Bytes) :
    SshShimRequest where
  protocol := Program.protocolVersion
  processId := facts.pid
  creationTime := facts.creationTime.toInt64
  clientNonce := facts.clientNonce
  serverNonce := challenge.serverNonce
  generation := challenge.generation.toInt64
  standardInputFlags := facts.inputFlags
  standardOutputFlags := facts.outputFlags
  standardErrorFlags := facts.errorFlags
  consoleProcesses := facts.consoleProcesses
  currentDirectory := replaceLone facts.currentDirectory
  arguments := facts.arguments.map replaceLone
  mac := mac
  canonicalBytes := canonical

lemma count_fits {n : ℕ} (h₀ : 0 < n) (h : n ≤ 256) :
    (decide (0 < UInt32.ofNat n) && decide (UInt32.ofNat n ≤ 256)) = true := by
  rw [Bool.and_eq_true, decide_eq_true_eq, decide_eq_true_eq]
  exact ⟨ofNat_pos h₀ (by omega), ofNat_le_of_le (m := 256) h (by omega)⟩

lemma reads_processes {ps : List UInt32} (h : ps.length ≤ 256) :
    Reads (times readUInt32 (UInt32.ofNat ps.length).toNat) (ps.flatMap fun p => leBytes 4 p.toBitVec)
      ps := by
  rw [toNat_ofNat_of_le (by omega)]
  refine Reads.of_eq (Reads.times (v := id) fun p _ => reads_readUInt32 p) rfl ?_
  exact List.map_id ps

lemma reads_arguments {ts : List Utf16} (h : ts.length ≤ 256) (ht : ∀ t ∈ ts, t.length ≤ 32767) :
    Reads (times readString (UInt32.ofNat ts.length).toNat) (ts.flatMap stringBytes)
      (ts.map replaceLone) := by
  rw [toNat_ofNat_of_le (by omega)]
  exact Reads.times fun t hmem => reads_readString (ht t hmem)

/-- The host's reader takes the shim's request field by field. -/
lemma reads_readRequest {facts : Program.Facts} (hb : facts.Bounded) (ha : 0 < facts.arguments.length)
    (challenge : Program.Challenge) (mac : Mac) (canonical : Bytes) :
    Reads (readRequest canonical) (Program.requestWord facts challenge ++ mac.1)
      (received facts challenge mac canonical) := by
  simp only [Program.requestWord, List.append_assoc]
  refine (reads_readByte Program.Message.request.value).bind (Reads.require_bind rfl ?_)
  refine (reads_readUInt16 Program.protocolVersion).bind ?_
  refine (reads_readUInt32 facts.pid).bind ?_
  refine (reads_readInt64_unsigned facts.creationTime).bind ?_
  refine (reads_readExact facts.clientNonce).bind ?_
  refine (reads_readExact challenge.serverNonce).bind ?_
  refine (reads_readInt64_unsigned challenge.generation).bind ?_
  refine (reads_readUInt32 facts.inputFlags).bind ?_
  refine (reads_readUInt32 facts.outputFlags).bind ?_
  refine (reads_readUInt32 facts.errorFlags).bind ?_
  refine (reads_readUInt32 (UInt32.ofNat facts.consoleProcesses.length)).bind ?_
  refine Reads.require_bind (count_fits hb.processes.1 hb.processes.2) ?_
  refine (reads_processes hb.processes.2).bind ?_
  refine (reads_readString hb.directory.2).bind ?_
  refine (reads_readUInt32 (UInt32.ofNat facts.arguments.length)).bind ?_
  refine Reads.require_bind (count_fits ha hb.count) ?_
  refine (reads_arguments hb.count hb.arguments).bind ?_
  exact (reads_readExact mac).bind_pure

/-- A body within the bounds is parsed. -/
lemma only_withReader {β : Type} {r : Bytes → BinaryReader β} {w : Bytes} {v : β}
    (h : Only (fun body => parse (r body) body) w v) (h₀ : 0 < w.length) (hw : w.length ≤ maximumFrame) :
    Only (fun body => withReader (r body) body) w v :=
  h.guard (c := fun body => 0 < body.length ∧ body.length ≤ maximumFrame) ⟨h₀, hw⟩

lemma take_canonical (canonical : Bytes) (mac : Mac) :
    (canonical ++ mac.1).take ((canonical ++ mac.1).length - 32) = canonical := by
  rw [List.length_append, mac.2, Nat.add_sub_cancel, List.take_left']
  rfl

/-- The host parses the shim's request, and nothing shorter or longer. -/
lemma only_parseRequest {facts : Program.Facts} (hb : facts.Bounded) (ha : 0 < facts.arguments.length)
    (challenge : Program.Challenge) (mac : Mac)
    (hframe : (Program.requestWord facts challenge ++ mac.1).length ≤ maximumFrame) :
    Only parseRequest (Program.requestWord facts challenge ++ mac.1)
      (received facts challenge mac (Program.requestWord facts challenge)) := by
  have hlen : 32 ≤ (Program.requestWord facts challenge ++ mac.1).length := by
    rw [List.length_append, mac.2]
    omega
  have hwhole := Reads.whole
    (e := Error.invalidData "Trailing authenticated shim request data.") fun body : Bytes =>
      reads_readRequest hb ha challenge mac (body.take (body.length - 32))
  rw [take_canonical] at hwhole
  have hread := only_withReader hwhole (by omega) hframe
  exact hread.guard (c := fun body => 32 ≤ body.length) hlen

/-- The fields in front of the counted ones stand at fixed places. -/
lemma readRequest_requestWord {facts : Program.Facts} {challenge : Program.Challenge}
    {canonical rest t : Bytes} {r : SshShimRequest}
    (h : readRequest canonical (Program.requestWord facts challenge ++ rest) = .ok (r, t)) :
    r.processId = facts.pid ∧ r.creationTime = facts.creationTime.toInt64 ∧
      r.clientNonce = facts.clientNonce ∧ r.serverNonce = challenge.serverNonce ∧
      r.generation = challenge.generation.toInt64 := by
  simp only [Program.requestWord, List.append_assoc] at h
  unfold readRequest at h
  rw [bind_ok ((reads_readByte Program.Message.request.value).exact _)] at h
  have h := (require_bind_eq_ok h).2
  rw [bind_ok ((reads_readUInt16 Program.protocolVersion).exact _),
    bind_ok ((reads_readUInt32 facts.pid).exact _),
    bind_ok ((reads_readInt64_unsigned facts.creationTime).exact _),
    bind_ok ((reads_readExact facts.clientNonce).exact _),
    bind_ok ((reads_readExact challenge.serverNonce).exact _),
    bind_ok ((reads_readInt64_unsigned challenge.generation).exact _)] at h
  iterate 11 obtain ⟨_, _, -, h⟩ := bind_eq_ok h
  cases h
  exact ⟨rfl, rfl, rfl, rfl, rfl⟩

end SshShimProtocol

namespace Program

/-- The shim reads the host's challenge. -/
lemma only_challengeFrame (generation : Int64) (serverNonce : Nonce) :
    Only challengeFrame (SshShimProtocol.challenge generation serverNonce)
      ⟨generation.toUInt64, serverNonce⟩ := by
  refine Reads.whole (r := fun _ => _) (v := fun _ => _) fun _ => ?_
  unfold SshShimProtocol.challenge
  rw [List.append_assoc]
  refine (reads_u8 SshShimMessage.challenge.value).bind ?_
  refine ((reads_u16 SshShimProtocol.version).map (· == protocolVersion)).bind ?_
  refine Reads.require_bind rfl ?_
  refine (reads_u64 generation.toUInt64).bind ?_
  exact (reads_bytes serverNonce).bind_pure

/-- The shim reads the host's response; a string arrives as the encoder wrote it. -/
lemma only_responseFrame {action : SshShimAction} {exitCode : Int32} {requestId : Guid}
    {reason first second : Utf16} {body : Bytes}
    (h : SshShimProtocol.response action exitCode requestId reason first second = .ok body) :
    Only responseFrame body
      { action := Action.ofByte action.value, exitCode, requestId, reason := replaceLone reason,
        first := replaceLone first, second := replaceLone second } := by
  unfold SshShimProtocol.response at h
  simp only [except_bind_eq_ok] at h
  obtain ⟨r, hr, f, hf, s, hs, h⟩ := h
  obtain ⟨hrl, rfl⟩ := SshShimProtocol.writeString_eq_ok hr
  obtain ⟨hfl, rfl⟩ := SshShimProtocol.writeString_eq_ok hf
  obtain ⟨hsl, rfl⟩ := SshShimProtocol.writeString_eq_ok hs
  cases h
  refine Reads.whole (r := fun _ => _) (v := fun _ => _) fun _ => ?_
  simp only [List.append_assoc]
  refine (reads_u8 SshShimMessage.response.value).bind (Reads.require_bind rfl ?_)
  refine ((reads_u8 action.value).map Action.ofByte).bind ?_
  refine ((reads_u32 exitCode.toUInt32).map UInt32.toInt32).bind ?_
  refine (reads_bytes requestId).bind ?_
  refine (reads_string (by rw [replaceLone_length]; exact hrl)).bind ?_
  refine (reads_string (by rw [replaceLone_length]; exact hfl)).bind ?_
  exact (reads_string (by rw [replaceLone_length]; exact hsl)).bind_pure

/-- The bytes of a completion: its status and the request it completes. -/
lemma reads_completeFields (exitCode : Int32) (completedId : Guid) :
    Reads completeFields (SshShimProtocol.complete exitCode completedId) (exitCode, completedId) := by
  refine (reads_u8 SshShimMessage.complete.value).bind (Reads.require_bind rfl ?_)
  refine ((reads_u32 exitCode.toUInt32).map UInt32.toInt32).bind ?_
  exact (reads_bytes completedId).bind_pure

/-- The shim reads the completion of its own request. -/
lemma only_completeFrame (exitCode : Int32) (requestId : Guid) :
    Only (completeFrame requestId) (SshShimProtocol.complete exitCode requestId) exitCode := by
  have honly := (reads_completeFields exitCode requestId).whole_checked
    (c := fun fields => fields.2 == requestId) (f := fun fields => fields.1)
    (e := "host completion request mismatch") (beq_self_eq_true requestId)
  exact honly

/-- The completion of another request is refused. -/
lemma completeFrame_other {exitCode : Int32} {requestId completedId : Guid} (h : completedId ≠ requestId) :
    completeFrame requestId (SshShimProtocol.complete exitCode completedId) =
      .error "host completion request mismatch" := by
  have hr := (reads_completeFields exitCode completedId).exact []
  rw [List.append_nil] at hr
  show Prod.fst <$> (completeFields >>= _) _ = _
  rw [bind_ok hr, beq_eq_false_iff_ne.mpr h]
  rfl

/-- When the shim writes a request, and what it writes. -/
lemma request_eq_ok_iff {hmacSha256 : Bytes → Bytes → Block UInt8 32} {capability : Bytes} {facts : Facts}
    {challenge : Challenge} {frame : Bytes} :
    request hmacSha256 capability facts challenge = .ok frame ↔
      facts.Bounded ∧ (requestWord facts challenge).length + 32 ≤ maximumFrame ∧
        frame = requestWord facts challenge ++ (hmacSha256 capability (requestWord facts challenge)).1 := by
  have hlen : ∀ canonical, (authenticated hmacSha256 capability canonical).length = canonical.length + 32 := by
    intro canonical
    rw [authenticated, List.length_append, (hmacSha256 capability canonical).2]
  have hout : ∀ canonical, outgoing (authenticated hmacSha256 capability canonical) = .ok frame ↔
      canonical.length + 32 ≤ maximumFrame ∧ frame = authenticated hmacSha256 capability canonical := by
    intro canonical
    unfold outgoing
    rw [check_bind_eq_ok, hlen, Bool.and_eq_true, decide_eq_true_eq, decide_eq_true_eq]
    exact and_congr ⟨fun h => h.2, fun h => ⟨Nat.succ_ne_zero _, h⟩⟩
      ⟨fun h => (Except.ok.inj h).symm, fun h => congrArg Except.ok h.symm⟩
  unfold request
  rw [except_bind_eq_ok]
  constructor
  · rintro ⟨canonical, hc, ho⟩
    obtain ⟨hb, rfl⟩ := canonicalRequest_eq_ok_iff.mp hc
    obtain ⟨hmax, rfl⟩ := (hout _).mp ho
    exact ⟨hb, hmax, rfl⟩
  · rintro ⟨hb, hmax, rfl⟩
    exact ⟨_, canonicalRequest_eq_ok_iff.mpr ⟨hb, rfl⟩, (hout _).mpr ⟨hmax, rfl⟩⟩

end Program

/-- **The two codecs agree.**  A request is written exactly under the shim's own bounds, and the host
parses it to the shim's fields, with the MACed bytes as `CanonicalBytes`; the shim reads every
challenge, response and completion of the host to the fields that were written.  On each side a frame
that is cut short or goes on is refused.  A string goes through unchanged exactly when it is
well-formed; the host's encoder replaces what is not. -/
theorem wire_agreement (hmacSha256 : Bytes → Bytes → Mac) :
    (∀ capability facts challenge,
      (∃ frame, Program.request hmacSha256 capability facts challenge = .ok frame) ↔
        facts.Bounded ∧ (Program.requestWord facts challenge).length + 32 ≤ SshShimProtocol.maximumFrame) ∧
    (∀ capability facts challenge frame,
      Program.request hmacSha256 capability facts challenge = .ok frame →
      0 < facts.arguments.length → WellFormed facts.currentDirectory = true →
      (∀ a ∈ facts.arguments, WellFormed a = true) →
      ∃ canonical, Program.canonicalRequest facts challenge = .ok canonical ∧
        frame = canonical ++ (hmacSha256 capability canonical).1 ∧
        Only SshShimProtocol.parseRequest frame
          { protocol := Program.protocolVersion
            processId := facts.pid
            creationTime := facts.creationTime.toInt64
            clientNonce := facts.clientNonce
            serverNonce := challenge.serverNonce
            generation := challenge.generation.toInt64
            standardInputFlags := facts.inputFlags
            standardOutputFlags := facts.outputFlags
            standardErrorFlags := facts.errorFlags
            consoleProcesses := facts.consoleProcesses
            currentDirectory := facts.currentDirectory
            arguments := facts.arguments
            mac := hmacSha256 capability canonical
            canonicalBytes := canonical }) ∧
    (∀ generation serverNonce,
      Only Program.challengeFrame (SshShimProtocol.challenge generation serverNonce)
        { generation := generation.toUInt64, serverNonce }) ∧
    (∀ (action : SshShimAction) exitCode requestId reason first second body,
      SshShimProtocol.response action exitCode requestId reason first second = .ok body →
      Only Program.responseFrame body
        { action := Program.Action.ofByte action.value, exitCode, requestId
          reason := replaceLone reason, first := replaceLone first, second := replaceLone second }) ∧
    (∀ exitCode requestId,
      Only (Program.completeFrame requestId) (SshShimProtocol.complete exitCode requestId) exitCode) ∧
    (∀ exitCode requestId completedId, completedId ≠ requestId →
      Program.completeFrame requestId (SshShimProtocol.complete exitCode completedId) =
        .error "host completion request mismatch") ∧
    ∀ t, replaceLone t = t ↔ WellFormed t = true := by
  refine ⟨fun capability facts challenge => ?_, fun capability facts challenge frame hframe ha hd hargs => ?_,
    fun generation serverNonce => Program.only_challengeFrame generation serverNonce,
    fun action exitCode requestId reason first second body h => Program.only_responseFrame h,
    fun exitCode requestId => Program.only_completeFrame exitCode requestId,
    fun exitCode requestId completedId h => Program.completeFrame_other h, replaceLone_eq_self_iff⟩
  · constructor
    · rintro ⟨frame, h⟩
      obtain ⟨hb, hlen, -⟩ := Program.request_eq_ok_iff.mp h
      exact ⟨hb, hlen⟩
    · rintro ⟨hb, hlen⟩
      exact ⟨_, Program.request_eq_ok_iff.mpr ⟨hb, hlen, rfl⟩⟩
  · obtain ⟨hb, hlen, rfl⟩ := Program.request_eq_ok_iff.mp hframe
    refine ⟨_, Program.canonicalRequest_eq_ok_iff.mpr ⟨hb, rfl⟩, rfl, ?_⟩
    have hmax : (Program.requestWord facts challenge ++
        (hmacSha256 capability (Program.requestWord facts challenge)).1).length ≤
          SshShimProtocol.maximumFrame := by
      rw [List.length_append, (hmacSha256 capability _).2]
      exact hlen
    have honly := SshShimProtocol.only_parseRequest hb ha challenge _ hmax
    have hmap : facts.arguments.map replaceLone = facts.arguments := by
      conv_rhs => rw [← List.map_id facts.arguments]
      exact List.map_congr_left fun a hmem => WellFormed.replaceLone_eq (hargs a hmem)
    rw [SshShimProtocol.received, WellFormed.replaceLone_eq hd, hmap] at honly
    exact honly

/-- A request for `ssh a` from a console of two processes. -/
def sampleFacts : Program.Facts where
  pid := 42
  creationTime := 7
  clientNonce := ⟨List.replicate 16 1, rfl⟩
  inputFlags := 0x10002
  outputFlags := 0x10002
  errorFlags := 0x10002
  consoleProcesses := [42, 17]
  currentDirectory := [0x43, 0x3a, 0x5c]
  arguments := [[0x73, 0x73, 0x68], [0x61]]

def sampleChallenge : Program.Challenge where
  generation := 1
  serverNonce := ⟨List.replicate 16 2, rfl⟩

lemma sampleFacts_bounded : sampleFacts.Bounded := by
  refine ⟨?_, ?_, ?_, ?_⟩ <;> decide

/-- The capability of the samples. -/
def sampleCapability : Bytes := List.replicate 32 0

/-- HMAC-SHA-256 on the strings that the sample shim MACs: its request, and its acknowledgement. -/
def sampleMac (key data : Bytes) : Mac :=
  Program.ofTable [((sampleCapability, Program.requestWord sampleFacts sampleChallenge),
      ⟨[187, 220, 125, 116, 102, 3, 101, 97, 196, 41, 93, 167, 147, 132, 141, 35, 5, 223, 122, 231, 59, 32,
        61, 153, 184, 113, 52, 47, 67, 72, 67, 184], rfl⟩),
    ((sampleCapability, Program.canonicalBarrier ⟨List.replicate 16 4, rfl⟩ sampleChallenge.serverNonce),
      ⟨[129, 148, 134, 39, 101, 234, 196, 192, 6, 144, 238, 145, 16, 32, 67, 238, 95, 5, 190, 247, 205, 234,
        90, 251, 59, 230, 103, 100, 222, 22, 239, 239], rfl⟩)] (key, data)

theorem wire_agreement_sample :
    ∃ frame, Program.request sampleMac sampleCapability sampleFacts sampleChallenge = .ok frame ∧
      ∃ request, SshShimProtocol.parseRequest frame = .ok request ∧ request.processId = 42 ∧
        request.arguments = [[0x73, 0x73, 0x68], [0x61]] := by
  have h := wire_agreement sampleMac
  obtain ⟨frame, hframe⟩ := (h.1 sampleCapability sampleFacts sampleChallenge).mpr
    ⟨sampleFacts_bounded, by decide⟩
  obtain ⟨canonical, -, -, honly⟩ := h.2.1 sampleCapability sampleFacts sampleChallenge frame hframe
    (by decide) (by decide) (by decide)
  exact ⟨frame, hframe, _, honly.accepts, rfl, rfl⟩

/-- A response for a client whose path ends with a lone surrogate: the shim reads U+FFFD in its place. -/
theorem response_replaces_surrogate :
    ∃ body, SshShimProtocol.response .system 0 ⟨List.replicate 16 3, rfl⟩ [] [0x43, 0x3a, 0x5c, 0xd800] [0x30] =
        .ok body ∧
      (Program.responseFrame body).map (·.first) = .ok [0x43, 0x3a, 0x5c, 0xfffd] := by
  obtain ⟨body, hbody⟩ : ∃ body, SshShimProtocol.response .system 0 ⟨List.replicate 16 3, rfl⟩ []
      [0x43, 0x3a, 0x5c, 0xd800] [0x30] = .ok body := ⟨_, rfl⟩
  refine ⟨body, hbody, ?_⟩
  rw [(Program.only_responseFrame hbody).accepts]
  exact congrArg Except.ok (by decide)

end VT7.Shim
