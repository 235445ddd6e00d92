import VT7.Dotnet.Unicode
import Mathlib.Data.List.Perm.Subperm
import Mathlib.Data.List.DropRight
import Mathlib.Data.Nat.Digits.Defs
import Mathlib.Algebra.Group.Int.Defs

/-!
# The grammar that the host embeds

`SshInvocationParser.TryParse` decides which command lines the host handles itself; everything else goes to
the external client.  `Eligible` is the grammar, and `described` is what the options of a command line say.
-/

namespace VT7.Shim

open VT7.Dotnet

/-! ### Characters and numbers -/

/-- `char.IsControl` of a UTF-16 unit. -/
def isControlUnit (u : UInt16) : Bool := u < 0x20 || (0x7f ≤ u && u ≤ 0x9f)

/-- `char.IsWhiteSpace` of a UTF-16 unit. -/
def isWhiteSpaceUnit (u : UInt16) : Bool :=
  u == 0x20 || (0x09 ≤ u && u ≤ 0x0d) || u == 0x85 || u == 0xa0 || u == 0x1680 || (0x2000 ≤ u && u ≤ 0x200a) ||
    u == 0x2028 || u == 0x2029 || u == 0x202f || u == 0x205f || u == 0x3000

def isDigitUnit (u : UInt16) : Bool := 0x30 ≤ u && u ≤ 0x39

/-- The number that some digits write. -/
def numberOf (digits : Utf16) : ℕ := digits.foldl (fun n u => 10 * n + (u.toNat - 0x30)) 0

/-- The white space of numbers. -/
def isNumberSpace (u : UInt16) : Bool := u == 0x20 || (0x09 ≤ u && u ≤ 0x0d)

/-- `int.TryParse` in a culture whose signs are `+` and `-`: white space, a sign, digits, white space and
NULs. -/
def tryParseInt (s : Utf16) : Option ℤ :=
  let s := s.dropWhile isNumberSpace
  let negative := s.head? == some 0x2d
  let s := if negative || s.head? == some 0x2b then s.tail else s
  let digits := s.takeWhile isDigitUnit
  let behind := (s.dropWhile isDigitUnit).dropWhile isNumberSpace
  if digits = [] ∨ ¬behind.all (· == 0) then none
  else
    let value : ℤ := if negative then -(numberOf digits : ℤ) else numberOf digits
    if -2 ^ 31 ≤ value ∧ value < 2 ^ 31 then some value else none

/-! ### The parser -/

/-- What `System.IO.Path` answers; nothing where it throws. -/
structure Paths where
  isPathRooted : Utf16 → Option Bool
  combine : Utf16 → Utf16 → Option Utf16
  getFullPath : Utf16 → Option Utf16

/-- `SshInvocation`. -/
structure SshInvocation where
  destination : Utf16 := []
  user : Option Utf16 := none
  port : ℕ := 22
  keyPath : Option Utf16 := none
  forceIpv4 : Bool := false
  forceIpv6 : Bool := false
deriving DecidableEq

/-- The answers of `TryParse`. -/
inductive Parsed where
  | eligible (invocation : SshInvocation)
  | rejected (reason : String)
  | threw
deriving DecidableEq

/-- The variables of the loop over the arguments. -/
structure ParseState where
  invocation : SshInvocation := {}
  destination : Option Utf16 := none
  sawUser : Bool := false
  sawPort : Bool := false
  sawKey : Bool := false
deriving DecidableEq

/-- `IsSafe`. -/
def isSafe (value : Utf16) : Bool := !value.isEmpty && !value.contains 0 && !value.any isControlUnit

def startsWithDash (value : Utf16) : Bool := value.head? == some 0x2d

section Parser

variable (P : Paths) (currentDirectory : Utf16)

/-- The full path of a key. -/
def keyPathOf (key : Utf16) : Option Utf16 := do
  let rooted ← P.isPathRooted key
  let path ← if rooted then some key else P.combine currentDirectory key
  P.getFullPath path

/-- The loop over the arguments. -/
def parseTokens (s : ParseState) : List Utf16 → Except Parsed ParseState
  | [] => .ok s
  | token :: rest =>
    if !isSafe token then .error (.rejected "invalid-token")
    else if s.destination.isSome then .error (.rejected "remote-command")
    else if token = [0x2d, 0x34] then
      if s.invocation.forceIpv4 || s.invocation.forceIpv6 then .error (.rejected "conflicting-address-family")
      else parseTokens { s with invocation := { s.invocation with forceIpv4 := true } } rest
    else if token = [0x2d, 0x36] then
      if s.invocation.forceIpv4 || s.invocation.forceIpv6 then .error (.rejected "conflicting-address-family")
      else parseTokens { s with invocation := { s.invocation with forceIpv6 := true } } rest
    else if token = [0x2d, 0x6c] then
      match rest with
      | [] => .error (.rejected "invalid-user")
      | user :: rest =>
        if s.sawUser || !isSafe user || startsWithDash user then .error (.rejected "invalid-user")
        else parseTokens { s with invocation := { s.invocation with user := some user }, sawUser := true } rest
    else if token = [0x2d, 0x70] then
      match rest with
      | [] => .error (.rejected "invalid-port")
      | value :: rest =>
        if s.sawPort then .error (.rejected "invalid-port")
        else
          match tryParseInt value with
          | none => .error (.rejected "invalid-port")
          | some port =>
            if port < 1 ∨ 65535 < port then .error (.rejected "invalid-port")
            else parseTokens { s with invocation := { s.invocation with port := port.toNat }, sawPort := true } rest
    else if token = [0x2d, 0x69] then
      match rest with
      | [] => .error (.rejected "invalid-key")
      | key :: rest =>
        if s.sawKey || !isSafe key then .error (.rejected "invalid-key")
        else
          match keyPathOf P currentDirectory key with
          | none => .error .threw
          | some path =>
            parseTokens { s with invocation := { s.invocation with keyPath := some path }, sawKey := true } rest
    else if startsWithDash token then .error (.rejected "unsupported-option")
    else parseTokens { s with destination := some token } rest

/-- What is in front of the last `@`, and what is behind it. -/
def splitAtLast (destination : Utf16) : Option (Utf16 × Utf16) :=
  if 0x40 ∈ destination then
    some ((destination.rdropWhile (· != 0x40)).dropLast, destination.rtakeWhile (· != 0x40))
  else none

/-- `TryParse` behind the loop. -/
def finishParse (s : ParseState) : Parsed :=
  match s.destination with
  | none => .rejected "missing-destination"
  | some destination =>
    if destination.all isWhiteSpaceUnit then .rejected "missing-destination"
    else
      match splitAtLast destination with
      | some (user, host) =>
        if s.sawUser || user.isEmpty || host.isEmpty then .rejected "invalid-destination"
        else if !isSafe host || host.any isWhiteSpaceUnit then .rejected "invalid-destination"
        else .eligible { s.invocation with user := some user, destination := host }
      | none =>
        if !isSafe destination || destination.any isWhiteSpaceUnit then .rejected "invalid-destination"
        else .eligible { s.invocation with destination := destination }

/-- `TryParse`; the first argument is the name of the program. -/
def tryParse (arguments : List Utf16) : Parsed :=
  if arguments.length < 2 ∨ 256 < arguments.length then .rejected "unsupported-grammar"
  else
    match parseTokens P currentDirectory {} arguments.tail with
    | .error answer => answer
    | .ok s => finishParse s

end Parser

/-! ### The grammar -/

/-- The options of the grammar, with their values as they are written. -/
inductive SshOption where
  | ipv4
  | ipv6
  | user (value : Utf16)
  | port (value : Utf16)
  | key (value : Utf16)
deriving DecidableEq

/-- What an option is about; only one option may be about the same. -/
inductive OptionKind where
  | family
  | user
  | port
  | key
deriving DecidableEq

namespace SshOption

def kind : SshOption → OptionKind
  | ipv4 | ipv6 => .family
  | user _ => .user
  | port _ => .port
  | key _ => .key

def tokens : SshOption → List Utf16
  | ipv4 => [[0x2d, 0x34]]
  | ipv6 => [[0x2d, 0x36]]
  | user value => [[0x2d, 0x6c], value]
  | port value => [[0x2d, 0x70], value]
  | key value => [[0x2d, 0x69], value]

def user? : SshOption → Option Utf16
  | user value => some value
  | _ => none

def port? : SshOption → Option Utf16
  | port value => some value
  | _ => none

def key? : SshOption → Option Utf16
  | key value => some value
  | _ => none

end SshOption

/-- A word without control characters. -/
def Plain (value : Utf16) : Prop := value ≠ [] ∧ ∀ u ∈ value, isControlUnit u = false

instance (value : Utf16) : Decidable (Plain value) := @instDecidableAnd _ _ _ (List.decidableBAll _ value)

/-- A port number in digits. -/
def IsPort (value : Utf16) : Prop := value ≠ [] ∧ (∀ u ∈ value, isDigitUnit u = true) ∧
  1 ≤ numberOf value ∧ numberOf value ≤ 65535

instance (value : Utf16) : Decidable (IsPort value) :=
  @instDecidableAnd _ _ _ (@instDecidableAnd _ _ (List.decidableBAll _ value) _)

def SshOption.Allowed : SshOption → Prop
  | .ipv4 | .ipv6 => True
  | .user value => Plain value ∧ startsWithDash value = false
  | .port value => IsPort value
  | .key value => Plain value

/-- The parts of a destination: what is in front of its last `@`, if there is one, and the host. -/
def IsDestination (destination : Utf16) (user : Option Utf16) (host : Utf16) : Prop :=
  (destination = match user with
    | none => host
    | some user => user ++ 0x40 :: host) ∧
  user ≠ some [] ∧ 0x40 ∉ host ∧ host ≠ [] ∧ ∀ u ∈ host, isWhiteSpaceUnit u = false

/-- The command lines of the grammar. -/
structure Eligible (tokens : List Utf16) (options : List SshOption) (destination : Utf16) (user : Option Utf16)
    (host : Utf16) : Prop where
  tokens : tokens = options.flatMap SshOption.tokens ++ [destination]
  once : (options.map SshOption.kind).Nodup
  allowed : ∀ o ∈ options, o.Allowed
  plain : Plain destination
  noDash : startsWithDash destination = false
  parts : IsDestination destination user host
  oneUser : user = none ∨ ∀ o ∈ options, o.kind ≠ .user

/-- The fields that the options set, over those of `invocation`; nothing if the path of a key cannot be
made. -/
def described (P : Paths) (currentDirectory : Utf16) (invocation : SshInvocation) (options : List SshOption) :
    Option SshInvocation := do
  let keyPath ← match options.findSome? SshOption.key? with
    | none => some invocation.keyPath
    | some key => (keyPathOf P currentDirectory key).map some
  return { invocation with
    user := (options.findSome? SshOption.user?).or invocation.user
    port := ((options.findSome? SshOption.port?).map numberOf).getD invocation.port
    keyPath := keyPath
    forceIpv4 := invocation.forceIpv4 || options.contains .ipv4
    forceIpv6 := invocation.forceIpv6 || options.contains .ipv6 }

/-! ### The loop reads options -/

section Loop

variable (P : Paths) (currentDirectory : Utf16)

/-- The loop has read an option of this kind. -/
def ParseState.Seen (s : ParseState) : OptionKind → Bool
  | .family => s.invocation.forceIpv4 || s.invocation.forceIpv6
  | .user => s.sawUser
  | .port => s.sawPort
  | .key => s.sawKey

/-- One option. -/
def ParseState.apply (s : ParseState) (o : SshOption) : Option ParseState :=
  if s.Seen o.kind then none
  else
    match o with
    | .ipv4 => some { s with invocation := { s.invocation with forceIpv4 := true } }
    | .ipv6 => some { s with invocation := { s.invocation with forceIpv6 := true } }
    | .user value =>
      if !isSafe value || startsWithDash value then none
      else some { s with invocation := { s.invocation with user := some value }, sawUser := true }
    | .port value =>
      (tryParseInt value).bind fun port =>
        if port < 1 ∨ 65535 < port then none
        else some { s with invocation := { s.invocation with port := port.toNat }, sawPort := true }
    | .key value =>
      if !isSafe value then none
      else (keyPathOf P currentDirectory value).map fun path =>
        { s with invocation := { s.invocation with keyPath := some path }, sawKey := true }

lemma ParseState.apply_destination {s s' : ParseState} {o : SshOption} (h : s.apply P currentDirectory o = some s') :
    s'.destination = s.destination := by
  unfold ParseState.apply at h
  split at h
  · cases h
  cases o with
  | ipv4 | ipv6 =>
    obtain rfl := Option.some.inj h
    rfl
  | user value =>
    dsimp only at h
    split at h
    · cases h
    · obtain rfl := Option.some.inj h
      rfl
  | port value =>
    obtain ⟨port, -, h⟩ := Option.bind_eq_some_iff.mp h
    split at h
    · cases h
    · obtain rfl := Option.some.inj h
      rfl
  | key value =>
    dsimp only at h
    split at h
    · cases h
    · obtain ⟨path, -, rfl⟩ := Option.map_eq_some_iff.mp h
      rfl

/-- A word that is no option ends the loop. -/
lemma parseTokens_destination {s : ParseState} (hs : s.destination = none) {token : Utf16} (hsafe : isSafe token = true)
    (hdash : startsWithDash token = false) :
    parseTokens P currentDirectory s [token] = .ok { s with destination := some token } := by
  have hne : ∀ u, token ≠ [0x2d, u] := by
    rintro u rfl
    cases hdash
  rw [parseTokens.eq_def]
  dsimp only
  rw [hsafe, hs, hdash, if_neg (by decide), if_neg (by decide), if_neg (hne _), if_neg (hne _), if_neg (hne _),
    if_neg (hne _), if_neg (hne _), if_neg (by decide)]
  rfl

/-- An option that applies is read, and the loop goes on behind it. -/
lemma parseTokens_option {s s' : ParseState} {o : SshOption} (hs : s.destination = none)
    (h : s.apply P currentDirectory o = some s') (rest : List Utf16) :
    parseTokens P currentDirectory s (o.tokens ++ rest) = parseTokens P currentDirectory s' rest := by
  unfold ParseState.apply at h
  split at h
  · cases h
  next hseen =>
  have hnone : s.destination.isSome = false := by rw [hs]; rfl
  cases o with
  | ipv4 =>
    obtain rfl := Option.some.inj h
    show parseTokens P currentDirectory s ([0x2d, 0x34] :: rest) = _
    rw [parseTokens.eq_def]
    dsimp only
    rw [if_neg (by decide), if_neg (by simp [hnone]), if_pos rfl]
    exact if_neg hseen
  | ipv6 =>
    obtain rfl := Option.some.inj h
    show parseTokens P currentDirectory s ([0x2d, 0x36] :: rest) = _
    rw [parseTokens.eq_def]
    dsimp only
    rw [if_neg (by decide), if_neg (by simp [hnone]), if_neg (by decide), if_pos rfl]
    exact if_neg hseen
  | user value =>
    dsimp only at h
    split at h
    · cases h
    next hvalue =>
    obtain rfl := Option.some.inj h
    show parseTokens P currentDirectory s ([0x2d, 0x6c] :: value :: rest) = _
    have hseen' : s.sawUser = false := by simpa [ParseState.Seen, SshOption.kind] using hseen
    rw [parseTokens.eq_def]
    dsimp only
    rw [if_neg (by decide), if_neg (by simp [hnone]), if_neg (by decide), if_neg (by decide), if_pos rfl]
    rw [if_neg (by simpa [hseen'] using hvalue)]
  | port value =>
    obtain ⟨port, hport, h⟩ := Option.bind_eq_some_iff.mp h
    split at h
    · cases h
    next hrange =>
    obtain rfl := Option.some.inj h
    show parseTokens P currentDirectory s ([0x2d, 0x70] :: value :: rest) = _
    rw [parseTokens.eq_def]
    dsimp only
    rw [if_neg (by decide), if_neg (by simp [hnone]), if_neg (by decide), if_neg (by decide),
      if_neg (by decide), if_pos rfl]
    rw [if_neg (by simpa [ParseState.Seen, SshOption.kind] using hseen), hport]
    dsimp only
    rw [if_neg hrange]
  | key value =>
    dsimp only at h
    split at h
    · cases h
    next hvalue =>
    obtain ⟨path, hpath, rfl⟩ := Option.map_eq_some_iff.mp h
    show parseTokens P currentDirectory s ([0x2d, 0x69] :: value :: rest) = _
    have hseen' : s.sawKey = false := by simpa [ParseState.Seen, SshOption.kind] using hseen
    rw [parseTokens.eq_def]
    dsimp only
    rw [if_neg (by decide), if_neg (by simp [hnone]), if_neg (by decide), if_neg (by decide),
      if_neg (by decide), if_neg (by decide), if_pos rfl]
    rw [if_neg (by simpa [hseen'] using hvalue), hpath]

lemma parseTokens_options {s s' : ParseState} {options : List SshOption} (hs : s.destination = none)
    (h : options.foldlM (ParseState.apply P currentDirectory) s = some s') (rest : List Utf16) :
    parseTokens P currentDirectory s (options.flatMap SshOption.tokens ++ rest) = parseTokens P currentDirectory s' rest := by
  induction options generalizing s with
  | nil =>
    obtain rfl := Option.some.inj h
    rfl
  | cons o options ih =>
    rw [List.foldlM_cons] at h
    obtain ⟨s₁, hfirst, hrest⟩ := Option.bind_eq_some_iff.mp h
    rw [List.flatMap_cons, List.append_assoc, parseTokens_option P currentDirectory hs hfirst]
    exact ih ((ParseState.apply_destination P currentDirectory hfirst).trans hs) hrest

/-- The words that take the loop from a state to another one: options, and a destination at the end. -/
inductive Consumes : ParseState → List Utf16 → ParseState → Prop
  | done (s : ParseState) : Consumes s [] s
  | destination (s : ParseState) {token : Utf16} (hsafe : isSafe token = true) (hdash : startsWithDash token = false) :
      Consumes s [token] { s with destination := some token }
  | option {s s₁ s' : ParseState} {o : SshOption} {rest : List Utf16} (h : s.apply P currentDirectory o = some s₁)
      (hrest : Consumes s₁ rest s') : Consumes s (o.tokens ++ rest) s'

/-- **What the loop accepts.** -/
lemma consumes_of_parseTokens {s s' : ParseState} {tokens : List Utf16} (hs : s.destination = none)
    (h : parseTokens P currentDirectory s tokens = .ok s') : Consumes P currentDirectory s tokens s' := by
  fun_induction parseTokens P currentDirectory s tokens with
  | case1 s =>
    obtain rfl := Except.ok.inj h
    exact .done s
  | case5 s rest _ hseen _ ih => exact @Consumes.option _ _ s _ s' .ipv4 rest (if_neg hseen) (ih hs h)
  | case7 s rest _ hseen _ _ ih => exact @Consumes.option _ _ s _ s' .ipv6 rest (if_neg hseen) (ih hs h)
  | case10 s _ value rest hvalue _ _ _ ih =>
    have happly : s.apply P currentDirectory (.user value) =
        some { s with invocation := { s.invocation with user := some value }, sawUser := true } := by
      simp only [Bool.or_eq_true, not_or] at hvalue
      unfold ParseState.apply
      rw [if_neg (by simpa [ParseState.Seen, SshOption.kind] using hvalue.1.1)]
      dsimp only
      rw [if_neg (by rw [Bool.or_eq_true, not_or]; exact ⟨hvalue.1.2, hvalue.2⟩)]
    exact @Consumes.option _ _ s _ s' (.user value) rest happly (ih hs h)
  | case15 s _ value rest hseen port hport hrange _ _ _ _ ih =>
    have happly : s.apply P currentDirectory (.port value) =
        some { s with invocation := { s.invocation with port := port.toNat }, sawPort := true } := by
      unfold ParseState.apply
      rw [if_neg (by simpa [ParseState.Seen, SshOption.kind] using hseen)]
      dsimp only
      rw [hport, Option.bind_some, if_neg hrange]
    exact @Consumes.option _ _ s _ s' (.port value) rest happly (ih hs h)
  | case19 s _ value rest hvalue path hpath _ _ _ _ _ ih =>
    have happly : s.apply P currentDirectory (.key value) =
        some { s with invocation := { s.invocation with keyPath := some path }, sawKey := true } := by
      simp only [Bool.or_eq_true, not_or] at hvalue
      unfold ParseState.apply
      rw [if_neg (by simpa [ParseState.Seen, SshOption.kind] using hvalue.1)]
      dsimp only
      rw [if_neg hvalue.2, hpath, Option.map_some]
    exact @Consumes.option _ _ s _ s' (.key value) rest happly (ih hs h)
  | case21 s token rest hsafe _ _ _ _ _ _ hdash =>
    cases rest with
    | nil =>
      obtain rfl := Except.ok.inj h
      exact .destination s (by simpa using hsafe) (by simpa using hdash)
    | cons next rest =>
      -- the word behind a destination ends the parse
      rw [parseTokens.eq_def] at h
      dsimp only at h
      split at h
      · cases h
      · rw [if_pos Option.isSome_some] at h
        cases h
  | _ => cases h

lemma parseTokens_ne_eligible (s : ParseState) (tokens : List Utf16) (invocation : SshInvocation) :
    parseTokens P currentDirectory s tokens ≠ .error (.eligible invocation) := by
  fun_induction parseTokens P currentDirectory s tokens <;> first | assumption | (intro h; cases h)

lemma Consumes.options {s s' : ParseState} {tokens : List Utf16} (h : Consumes P currentDirectory s tokens s') :
    ∃ options s₁, List.foldlM (ParseState.apply P currentDirectory) s options = some s₁ ∧
      (tokens = options.flatMap SshOption.tokens ∧ s' = s₁ ∨
        ∃ destination, tokens = options.flatMap SshOption.tokens ++ [destination] ∧ isSafe destination = true ∧
          startsWithDash destination = false ∧ s' = { s₁ with destination := some destination }) := by
  induction h with
  | done s => exact ⟨[], s, rfl, .inl ⟨rfl, rfl⟩⟩
  | @destination s token hsafe hdash => exact ⟨[], s, rfl, .inr ⟨token, rfl, hsafe, hdash, rfl⟩⟩
  | @option s s₁ s' o rest happly hrest ih =>
    obtain ⟨options, s₂, hfold, htokens⟩ := ih
    refine ⟨o :: options, s₂, ?_, ?_⟩
    · rw [List.foldlM_cons, happly]
      exact hfold
    · rw [List.flatMap_cons]
      rcases htokens with ⟨hr, hs'⟩ | ⟨destination, hr, hd⟩
      · exact .inl ⟨congrArg _ hr, hs'⟩
      · exact .inr ⟨destination, (congrArg _ hr).trans (List.append_assoc _ _ _).symm, hd⟩

end Loop

/-! ### Safe words and ports -/

lemma isSafe_iff (value : Utf16) : isSafe value = true ↔ Plain value := by
  unfold isSafe Plain
  have hnul : isControlUnit 0 = true := rfl
  simp only [Bool.and_eq_true, Bool.not_eq_true', List.isEmpty_eq_false_iff, List.contains_eq_mem, decide_eq_false_iff_not,
    List.any_eq_false, Bool.not_eq_true]
  constructor
  · exact fun h => ⟨h.1.1, h.2⟩
  · refine fun h => ⟨⟨h.1, fun h0 => ?_⟩, h.2⟩
    have hcontrol := h.2 0 h0
    rw [hnul] at hcontrol
    cases hcontrol

lemma digit_bounds {u : UInt16} (h : isDigitUnit u = true) : 0x30 ≤ u.toNat ∧ u.toNat ≤ 0x39 := by
  unfold isDigitUnit at h
  rw [Bool.and_eq_true, decide_eq_true_iff, decide_eq_true_iff, UInt16.le_iff_toNat_le, UInt16.le_iff_toNat_le] at h
  exact h

/-- Digits without anything else are read as their number. -/
lemma tryParseInt_of_isPort {value : Utf16} (h : IsPort value) : tryParseInt value = some (numberOf value : ℤ) := by
  obtain ⟨hne, hdigits, hpos, hle⟩ := h
  obtain ⟨u, rest, rfl⟩ := List.exists_cons_of_ne_nil hne
  have hu := digit_bounds (hdigits u List.mem_cons_self)
  have hspace : isNumberSpace u = false := by
    unfold isNumberSpace
    rw [Bool.or_eq_false_iff, Bool.and_eq_false_iff, beq_eq_false_iff_ne]
    refine ⟨?_, .inr ?_⟩
    · rintro rfl
      exact absurd hu.1 (by decide)
    · rw [decide_eq_false_iff_not, UInt16.le_iff_toNat_le]
      exact fun hle' => absurd (Nat.le_trans hu.1 hle') (by decide)
  have hminus : ((some u : Option UInt16) == some 0x2d) = false := by
    rw [beq_eq_false_iff_ne]
    rintro ⟨⟩
    exact absurd hu.1 (by decide)
  have hplus : ((some u : Option UInt16) == some 0x2b) = false := by
    rw [beq_eq_false_iff_ne]
    rintro ⟨⟩
    exact absurd hu.1 (by decide)
  have htake : (u :: rest).takeWhile isDigitUnit = u :: rest := List.takeWhile_eq_self_iff.mpr hdigits
  have hdrop : (u :: rest).dropWhile isDigitUnit = [] := List.dropWhile_eq_nil_iff.mpr hdigits
  unfold tryParseInt
  dsimp only
  rw [List.dropWhile_cons_of_neg (by rw [hspace]; exact Bool.false_ne_true), List.head?_cons, hminus, hplus,
    Bool.or_self, if_neg Bool.false_ne_true, htake, hdrop, List.dropWhile_nil,
    if_neg (by simp), if_neg Bool.false_ne_true, if_pos (by omega)]

/-! ### What the options leave -/

section Fold

variable (P : Paths) (currentDirectory : Utf16)

lemma findSome?_eq_none {α : Type} {f : SshOption → Option α} {k : OptionKind} {options : List SshOption}
    (hf : ∀ o, o.kind ≠ k → f o = none) (h : ∀ o ∈ options, o.kind ≠ k) : options.findSome? f = none :=
  List.findSome?_eq_none_iff.mpr fun o ho => hf o (h o ho)

lemma user?_of_kind (o : SshOption) (h : o.kind ≠ .user) : o.user? = none := by
  cases o with
  | user value => exact absurd rfl h
  | _ => rfl

lemma port?_of_kind (o : SshOption) (h : o.kind ≠ .port) : o.port? = none := by
  cases o with
  | port value => exact absurd rfl h
  | _ => rfl

lemma key?_of_kind (o : SshOption) (h : o.kind ≠ .key) : o.key? = none := by
  cases o with
  | key value => exact absurd rfl h
  | _ => rfl

/-- One option after the other, where no two are about the same. -/
lemma described_cons {invocation : SshInvocation} {o : SshOption} {options : List SshOption}
    (hfresh : ∀ o' ∈ options, o'.kind ≠ o.kind) : described P currentDirectory invocation (o :: options) =
      (described P currentDirectory invocation [o]).bind fun next => described P currentDirectory next options := by
  have huser := @findSome?_eq_none _ SshOption.user? .user options user?_of_kind
  have hport := @findSome?_eq_none _ SshOption.port? .port options port?_of_kind
  have hkey := @findSome?_eq_none _ SshOption.key? .key options key?_of_kind
  unfold described
  cases o with
  | ipv4 | ipv6 => simp [SshOption.user?, SshOption.port?, SshOption.key?, List.findSome?_cons]
  | user value => simp [SshOption.user?, SshOption.port?, SshOption.key?, List.findSome?_cons, huser hfresh]
  | port value => simp [SshOption.user?, SshOption.port?, SshOption.key?, List.findSome?_cons, hport hfresh]
  | key value =>
    simp only [SshOption.user?, SshOption.port?, SshOption.key?, List.findSome?_cons, hkey hfresh]
    cases keyPathOf P currentDirectory value <;> simp

/-- The port values that are read are ports of the grammar. -/
def PortsRead (options : List SshOption) : Prop := ∀ value, SshOption.port value ∈ options →
  ∀ n, tryParseInt value = some n → 1 ≤ n → n ≤ 65535 → IsPort value

/-- What an option that applies does. -/
lemma ParseState.apply_spec {s s' : ParseState} {o : SshOption} (hports : PortsRead [o])
    (h : s.apply P currentDirectory o = some s') :
    s.Seen o.kind = false ∧ o.Allowed ∧ (∀ k, s'.Seen k = (s.Seen k || k == o.kind)) ∧
      described P currentDirectory s.invocation [o] = some s'.invocation := by
  unfold ParseState.apply at h
  split at h
  · cases h
  next hseen =>
  refine ⟨by simpa using hseen, ?_⟩
  cases o with
  | ipv4 | ipv6 =>
    obtain rfl := Option.some.inj h
    refine ⟨trivial, fun k => ?_, by simp [described, SshOption.user?, SshOption.port?, SshOption.key?]⟩
    cases k <;> simp [ParseState.Seen, SshOption.kind]
  | user value =>
    dsimp only at h
    split at h
    · cases h
    next hvalue =>
    rw [Bool.or_eq_true, not_or, Bool.not_eq_true', Bool.not_eq_false, Bool.not_eq_true] at hvalue
    obtain rfl := Option.some.inj h
    refine ⟨⟨(isSafe_iff value).mp hvalue.1, hvalue.2⟩, fun k => ?_,
      by simp [described, SshOption.user?, SshOption.port?, SshOption.key?]⟩
    cases k <;> simp [ParseState.Seen, SshOption.kind]
  | port value =>
    obtain ⟨port, hport, h⟩ := Option.bind_eq_some_iff.mp h
    split at h
    · cases h
    next hrange =>
    have hvalue := hports value List.mem_cons_self port hport (by omega) (by omega)
    obtain rfl := Option.some.inj h
    obtain rfl := Option.some.inj (hport.symm.trans (tryParseInt_of_isPort hvalue))
    refine ⟨hvalue, fun k => ?_, by simp [described, SshOption.user?, SshOption.port?, SshOption.key?]⟩
    cases k <;> simp [ParseState.Seen, SshOption.kind]
  | key value =>
    dsimp only at h
    split at h
    · cases h
    next hvalue =>
    rw [Bool.not_eq_true', Bool.not_eq_false] at hvalue
    obtain ⟨path, hpath, rfl⟩ := Option.map_eq_some_iff.mp h
    refine ⟨(isSafe_iff value).mp hvalue, fun k => ?_,
      by simp [described, SshOption.user?, SshOption.port?, SshOption.key?, hpath]⟩
    cases k <;> simp [ParseState.Seen, SshOption.kind]

lemma ParseState.apply_of_allowed {s : ParseState} {o : SshOption} {invocation : SshInvocation}
    (hseen : s.Seen o.kind = false) (hallowed : o.Allowed)
    (h : described P currentDirectory s.invocation [o] = some invocation) :
    ∃ s', s.apply P currentDirectory o = some s' := by
  unfold ParseState.apply
  rw [if_neg (by rw [hseen]; exact Bool.false_ne_true)]
  cases o with
  | ipv4 | ipv6 => exact ⟨_, rfl⟩
  | user value =>
    have hvalue : (!isSafe value || startsWithDash value) = false := by
      rw [(isSafe_iff value).mpr hallowed.1, hallowed.2]
      rfl
    dsimp only
    rw [if_neg (by rw [hvalue]; exact Bool.false_ne_true)]
    exact ⟨_, rfl⟩
  | port value =>
    dsimp only
    rw [tryParseInt_of_isPort hallowed, Option.bind_some,
      if_neg (not_or.mpr ⟨by have := hallowed.2.2.1; omega, by have := hallowed.2.2.2; omega⟩)]
    exact ⟨_, rfl⟩
  | key value =>
    obtain ⟨path, hpath, -⟩ := Option.bind_eq_some_iff.mp h
    obtain ⟨path, hpath, -⟩ := Option.map_eq_some_iff.mp hpath
    dsimp only
    rw [(isSafe_iff value).mpr hallowed, if_neg (by decide), hpath]
    exact ⟨_, rfl⟩

/-- **What the options of a command line leave behind.** -/
lemma fold_spec {s s' : ParseState} {options : List SshOption} (hports : PortsRead options)
    (h : options.foldlM (ParseState.apply P currentDirectory) s = some s') :
    (options.map SshOption.kind).Nodup ∧ (∀ o ∈ options, s.Seen o.kind = false ∧ o.Allowed) ∧
      (∀ k, s'.Seen k = (s.Seen k || (options.map SshOption.kind).contains k)) ∧
      s'.destination = s.destination ∧ described P currentDirectory s.invocation options = some s'.invocation := by
  induction options generalizing s with
  | nil =>
    obtain rfl := Option.some.inj h
    exact ⟨.nil, fun o ho => absurd ho List.not_mem_nil, fun k => (Bool.or_false _).symm, rfl,
      by simp [described]⟩
  | cons o options ih =>
    rw [List.foldlM_cons] at h
    obtain ⟨s₁, hfirst, hrest⟩ := Option.bind_eq_some_iff.mp h
    have hone : PortsRead [o] := fun value hv =>
      hports value (List.mem_singleton.mp hv ▸ List.mem_cons_self)
    obtain ⟨hseen, hallowed, hnext, hdescribed⟩ := ParseState.apply_spec P currentDirectory hone hfirst
    obtain ⟨hnodup, hall, hlast, hdest, hrestDescribed⟩ :=
      ih (fun value hv => hports value (List.mem_cons_of_mem _ hv)) hrest
    have hfresh : ∀ o' ∈ options, s.Seen o'.kind = false ∧ o'.kind ≠ o.kind := by
      intro o' ho'
      have hnot := (hall o' ho').1
      rw [hnext, Bool.or_eq_false_iff, beq_eq_false_iff_ne] at hnot
      exact hnot
    refine ⟨?_, ?_, fun k => ?_, hdest.trans (ParseState.apply_destination P currentDirectory hfirst), ?_⟩
    · rw [List.map_cons, List.nodup_cons]
      refine ⟨?_, hnodup⟩
      intro hmem
      obtain ⟨o', ho', heq⟩ := List.mem_map.mp hmem
      exact (hfresh o' ho').2 heq
    · intro o' ho'
      rcases List.mem_cons.mp ho' with rfl | ho'
      · exact ⟨hseen, hallowed⟩
      · exact ⟨(hfresh o' ho').1, (hall o' ho').2⟩
    · rw [hlast, hnext, List.map_cons, List.contains_cons, Bool.or_assoc]
    · rw [described_cons P currentDirectory fun o' ho' => (hfresh o' ho').2, hdescribed, Option.bind_some,
        hrestDescribed]

/-- Options of the grammar apply one after the other. -/
lemma fold_of_allowed {s : ParseState} {options : List SshOption} {invocation : SshInvocation}
    (hnodup : (options.map SshOption.kind).Nodup) (hseen : ∀ o ∈ options, s.Seen o.kind = false)
    (hallowed : ∀ o ∈ options, o.Allowed)
    (h : described P currentDirectory s.invocation options = some invocation) :
    ∃ s', options.foldlM (ParseState.apply P currentDirectory) s = some s' := by
  induction options generalizing s with
  | nil => exact ⟨s, rfl⟩
  | cons o options ih =>
    rw [List.map_cons, List.nodup_cons] at hnodup
    have hother : ∀ o' ∈ options, o'.kind ≠ o.kind := by
      intro o' ho' heq
      exact hnodup.1 (heq ▸ List.mem_map_of_mem ho')
    rw [described_cons P currentDirectory hother] at h
    obtain ⟨next, hone, hrest⟩ := Option.bind_eq_some_iff.mp h
    have hown := hallowed o List.mem_cons_self
    obtain ⟨s₁, hfirst⟩ := ParseState.apply_of_allowed P currentDirectory (hseen o List.mem_cons_self) hown hone
    have hports : PortsRead [o] := by
      intro value hv n _ _ _
      obtain rfl := List.mem_singleton.mp hv
      exact hown
    obtain ⟨-, -, hnext, hdescribed⟩ := ParseState.apply_spec P currentDirectory hports hfirst
    obtain rfl := Option.some.inj (hone.symm.trans hdescribed)
    obtain ⟨s', hs'⟩ := ih hnodup.2 (fun o' ho' => by
        rw [hnext, hseen o' (List.mem_cons_of_mem _ ho'), Bool.false_or, beq_eq_false_iff_ne]
        exact hother o' ho') (fun o' ho' => hallowed o' (List.mem_cons_of_mem _ ho')) hrest
    exact ⟨s', by rw [List.foldlM_cons, hfirst]; exact hs'⟩

end Fold

/-! ### The destination -/

lemma splitAtLast_at {host : Utf16} (user : Utf16) (hhost : 0x40 ∉ host) :
    splitAtLast (user ++ 0x40 :: host) = some (user, host) := by
  have hall : ∀ u ∈ host.reverse, (u != 0x40) = true := by
    intro u hu
    rw [bne_iff_ne]
    rintro rfl
    exact hhost (List.mem_reverse.mp hu)
  have hreverse : (user ++ 0x40 :: host).reverse = host.reverse ++ 0x40 :: user.reverse := by simp
  have htake : (user ++ 0x40 :: host).rtakeWhile (· != 0x40) = host := by
    rw [List.rtakeWhile, hreverse, List.takeWhile_append_of_pos hall, List.takeWhile_cons_of_neg (by decide),
      List.append_nil, List.reverse_reverse]
  have hdrop : (user ++ 0x40 :: host).rdropWhile (· != 0x40) = user ++ [0x40] := by
    rw [List.rdropWhile, hreverse, List.dropWhile_append_of_pos hall, List.dropWhile_cons_of_neg (by decide)]
    simp
  unfold splitAtLast
  rw [if_pos (List.mem_append_right _ List.mem_cons_self), htake, hdrop, List.dropLast_concat]

lemma exists_last_at {destination : Utf16} (h : 0x40 ∈ destination) :
    ∃ user host, destination = user ++ 0x40 :: host ∧ 0x40 ∉ host := by
  obtain ⟨front, back, heq, hfront⟩ := List.eq_append_cons_of_mem (List.mem_reverse.mpr h)
  refine ⟨back.reverse, front.reverse, ?_, fun hmem => hfront (List.mem_reverse.mp hmem)⟩
  rw [← List.reverse_reverse destination, heq]
  simp

/-- A host without white space is a safe word, and the destination is not blank. -/
lemma host_accepted {destination user host : Utf16} (hplain : Plain destination) (hpart : destination = user ++ host)
    (hne : host ≠ []) (hspace : ∀ u ∈ host, isWhiteSpaceUnit u = false) :
    destination.all isWhiteSpaceUnit = false ∧ (!isSafe host || host.any isWhiteSpaceUnit) = false := by
  obtain ⟨u, rest, rfl⟩ := List.exists_cons_of_ne_nil hne
  have hmem : ∀ v ∈ u :: rest, v ∈ destination := fun v hv => hpart ▸ List.mem_append_right _ hv
  constructor
  · rw [List.all_eq_false]
    exact ⟨u, hmem u List.mem_cons_self, by rw [hspace u List.mem_cons_self]; exact Bool.false_ne_true⟩
  · rw [(isSafe_iff _).mpr ⟨hne, fun v hv => hplain.2 v (hmem v hv)⟩, Bool.not_true, Bool.false_or, List.any_eq_false]
    exact fun v hv => by rw [hspace v hv]; exact Bool.false_ne_true

/-- **What the parser accepts behind the loop.** -/
lemma finishParse_iff {s : ParseState} {destination : Utf16} (hs : s.destination = some destination)
    (hplain : Plain destination) (invocation : SshInvocation) :
    finishParse s = .eligible invocation ↔ ∃ user host, IsDestination destination user host ∧
      (user = none ∨ s.sawUser = false) ∧
      invocation = { s.invocation with user := user.or s.invocation.user, destination := host } := by
  unfold finishParse
  rw [hs]
  dsimp only
  constructor
  · intro h
    split at h
    · cases h
    by_cases hat : 0x40 ∈ destination
    · obtain ⟨user, host, hparts, hhost⟩ := exists_last_at hat
      rw [hparts, splitAtLast_at user hhost] at h
      dsimp only at h
      split at h
      · cases h
      next hfine =>
      split at h
      · cases h
      next hsafe =>
      simp only [Bool.or_eq_true, not_or, List.isEmpty_iff, Bool.not_eq_true] at hfine
      simp only [Bool.or_eq_true, not_or, List.any_eq_true, not_exists, not_and, Bool.not_eq_true] at hsafe
      refine ⟨some user, host, ⟨hparts, ?_, hhost, hfine.2, hsafe.2⟩, .inr hfine.1.1, ?_⟩
      · rintro ⟨⟩
        exact hfine.1.2 rfl
      · exact (Parsed.eligible.inj h).symm
    · rw [splitAtLast, if_neg hat] at h
      dsimp only at h
      split at h
      · cases h
      next hsafe =>
      simp only [Bool.or_eq_true, not_or, List.any_eq_true, not_exists, not_and, Bool.not_eq_true] at hsafe
      refine ⟨none, destination, ⟨rfl, (Option.some_ne_none _).symm, hat, hplain.1, hsafe.2⟩, .inl rfl, ?_⟩
      exact (Parsed.eligible.inj h).symm
  · rintro ⟨user, host, ⟨hparts, huser, hat, hne, hspace⟩, hone, rfl⟩
    cases user with
    | none =>
      obtain ⟨hblank, haccepted⟩ := @host_accepted _ [] _ hplain hparts hne hspace
      dsimp only at hparts
      rw [hblank, if_neg Bool.false_ne_true, splitAtLast, if_neg (by rw [hparts]; exact hat)]
      dsimp only
      rw [hparts, haccepted, if_neg Bool.false_ne_true]
      rfl
    | some user =>
      dsimp only at hparts
      obtain ⟨hblank, haccepted⟩ := @host_accepted _ (user ++ [0x40]) _ hplain
        (by rw [hparts, List.append_assoc]; rfl) hne hspace
      have huser' : user.isEmpty = false := List.isEmpty_eq_false_iff.mpr fun h => huser (congrArg some h)
      have hhost' : host.isEmpty = false := List.isEmpty_eq_false_iff.mpr hne
      have hsaw : s.sawUser = false := hone.resolve_left (by intro h; cases h)
      rw [hblank, if_neg Bool.false_ne_true, hparts, splitAtLast_at user hat]
      dsimp only
      rw [hsaw, huser', hhost', haccepted, if_neg (by decide), if_neg Bool.false_ne_true]
      rfl

/-! ### The grammar is exact -/

/-- The grammar has no long command lines. -/
lemma Eligible.length_le {tokens : List Utf16} {options : List SshOption} {destination host : Utf16}
    {user : Option Utf16} (h : Eligible tokens options destination user host) : tokens.length ≤ 9 := by
  have hsub : options.map SshOption.kind ⊆ [.family, .user, .port, .key] := by
    intro k _
    cases k <;> simp
  have hlen : options.length ≤ 4 := by
    have := (List.subperm_of_subset h.once hsub).length_le
    rwa [List.length_map] at this
  have htwo : (options.flatMap SshOption.tokens).length ≤ 2 * options.length := by
    clear h hsub hlen
    induction options with
    | nil => exact Nat.le_refl 0
    | cons o options ih =>
      have hone : o.tokens.length ≤ 2 := by cases o <;> simp [SshOption.tokens]
      rw [List.flatMap_cons, List.length_append, List.length_cons]
      omega
  rw [h.tokens, List.length_append, List.length_singleton]
  omega

/-- **The embedded grammar is exact.**  Where every port that is read is written in digits, the parser accepts
the command lines of the grammar and no others, and its invocation says what the options and the destination
say, with the full path of a key. -/
theorem eligible_iff (P : Paths) (currentDirectory : Utf16) (arguments : List Utf16)
    (hports : ∀ value, [[0x2d, 0x70], value] <:+: arguments.tail →
      ∀ n, tryParseInt value = some n → 1 ≤ n → n ≤ 65535 → IsPort value) (invocation : SshInvocation) :
    tryParse P currentDirectory arguments = .eligible invocation ↔
      ∃ options destination user host fields, Eligible arguments.tail options destination user host ∧
        described P currentDirectory {} options = some fields ∧
        invocation = { fields with user := user.or fields.user, destination := host } := by
  unfold tryParse
  constructor
  · intro h
    split at h
    · cases h
    split at h
    · next answer hloop =>
      subst h
      exact absurd hloop (parseTokens_ne_eligible P currentDirectory _ _ _)
    next s hloop =>
    obtain ⟨options, s₁, hfold, htokens⟩ := (consumes_of_parseTokens P currentDirectory rfl hloop).options
    have hread : PortsRead options := by
      intro value hv
      obtain ⟨front, back, rfl⟩ := List.append_of_mem hv
      refine hports value ?_
      rcases htokens with ⟨htokens, -⟩ | ⟨destination, htokens, -⟩
      · rw [htokens]
        exact ⟨front.flatMap SshOption.tokens, back.flatMap SshOption.tokens, by simp [SshOption.tokens]⟩
      · rw [htokens]
        exact ⟨front.flatMap SshOption.tokens, back.flatMap SshOption.tokens ++ [destination],
          by simp [SshOption.tokens]⟩
    obtain ⟨hnodup, hallowed, hseen, hnone, hdescribed⟩ := fold_spec P currentDirectory hread hfold
    rcases htokens with ⟨-, rfl⟩ | ⟨destination, htokens, hsafe, hdash, rfl⟩
    · -- the loop has found no destination
      unfold finishParse at h
      rw [hnone] at h
      cases h
    have hplain := (isSafe_iff destination).mp hsafe
    obtain ⟨user, host, hparts, hone, rfl⟩ := (finishParse_iff rfl hplain invocation).mp h
    refine ⟨options, destination, user, host, s₁.invocation, ?_, hdescribed, rfl⟩
    refine ⟨htokens, hnodup, fun o ho => (hallowed o ho).2, hplain, hdash, hparts, hone.imp_right ?_⟩
    intro hsaw o ho hkind
    have huser := hseen .user
    rw [show s₁.Seen .user = s₁.sawUser from rfl, hsaw, eq_comm, Bool.or_eq_false_iff] at huser
    rw [List.contains_eq_mem, decide_eq_false_iff_not] at huser
    exact huser.2 (List.mem_map.mpr ⟨o, ho, hkind⟩)
  · rintro ⟨options, destination, user, host, fields, heligible, hfields, rfl⟩
    have hlength := heligible.length_le
    have hlength' := List.length_tail (l := arguments)
    have hpos : 0 < arguments.tail.length := by rw [heligible.tokens]; simp
    rw [if_neg (by omega)]
    obtain ⟨s, hfold⟩ := fold_of_allowed P currentDirectory (s := {}) heligible.once
      (by intro o _; cases o <;> rfl) heligible.allowed hfields
    have hread : PortsRead options := by
      intro value hv _ _ _ _
      exact heligible.allowed _ hv
    obtain ⟨-, -, hseen, hnone, hdescribed⟩ := fold_spec P currentDirectory hread hfold
    obtain rfl := Option.some.inj (hfields.symm.trans hdescribed)
    rw [heligible.tokens, parseTokens_options P currentDirectory rfl hfold,
      parseTokens_destination P currentDirectory hnone ((isSafe_iff destination).mpr heligible.plain) heligible.noDash]
    refine (finishParse_iff rfl heligible.plain _).mpr ⟨user, host, heligible.parts, heligible.oneUser.imp_right ?_, rfl⟩
    intro hother
    have huser := hseen .user
    rw [show s.Seen .user = s.sawUser from rfl] at huser
    rw [List.contains_eq_mem] at huser
    refine huser.trans (Bool.or_eq_false_iff.mpr ⟨rfl, decide_eq_false ?_⟩)
    intro hmem
    obtain ⟨o, ho, hkind⟩ := List.mem_map.mp hmem
    exact hother o ho hkind

/-- Paths on one drive without links and dots. -/
def drivePaths : Paths where
  isPathRooted path := some (path.head? == some 0x5c || path[1]? == some 0x3a)
  combine directory path := some (directory ++ 0x5c :: path)
  getFullPath path := some path

/-- `ssh -p 22 u@h`. -/
theorem eligible_iff_port : tryParse drivePaths [0x43, 0x3a] [[0x73], [0x2d, 0x70], [0x32, 0x32], [0x75, 0x40, 0x68]] =
    .eligible { destination := [0x68], user := some [0x75] } := by
  refine (eligible_iff drivePaths [0x43, 0x3a] [[0x73], [0x2d, 0x70], [0x32, 0x32], [0x75, 0x40, 0x68]] ?_ _).mpr ?_
  · intro value hvalue _ _ _ _
    have htwo : value = [0x32, 0x32] := by
      obtain ⟨front, back, heq⟩ := hvalue
      rcases front with _ | ⟨_, _ | ⟨_, _ | ⟨_, front⟩⟩⟩ <;> simp_all
    subst htwo
    decide
  · refine ⟨[.port [0x32, 0x32]], [0x75, 0x40, 0x68], some [0x75], [0x68], {}, ?_, rfl, rfl⟩
    refine ⟨rfl, by decide, ?_, by decide, rfl, ⟨rfl, by decide, by decide, by decide, List.forall_mem_singleton.mpr rfl⟩,
      .inr ?_⟩
    · intro o ho
      obtain rfl := List.mem_singleton.mp ho
      show IsPort [0x32, 0x32]
      decide
    · intro o ho
      obtain rfl := List.mem_singleton.mp ho
      decide

/-- `ssh -i k h` is a command line of the grammar; its key is not the value given but the full path of it. -/
theorem relative_key_is_resolved :
    Eligible [[0x2d, 0x69], [0x6b], [0x68]] [.key [0x6b]] [0x68] none [0x68] ∧
    tryParse drivePaths [0x43, 0x3a] [[0x73], [0x2d, 0x69], [0x6b], [0x68]] ≠
      .eligible { destination := [0x68], keyPath := some [0x6b] } := by
  refine ⟨⟨rfl, by decide, ?_, by decide, rfl, ⟨rfl, by decide, by decide, by decide, List.forall_mem_singleton.mpr rfl⟩,
    .inl rfl⟩, by decide⟩
  intro o ho
  obtain rfl := List.mem_singleton.mp ho
  show Plain [0x6b]
  decide

end VT7.Shim
