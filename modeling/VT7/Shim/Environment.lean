import VT7.Shim.RunShim
import Mathlib.Data.List.Lex

/-!
The environment that `LaunchSystem` gives to the external client: `SanitizedEnvironment` without the
variables of the shim and without its directory on the path.
-/

namespace VT7.Shim.Program

open VT7.Dotnet

/-! ### The source -/

/-- `_wcsnicmp(left.c_str(), right.c_str(), count) == 0`. -/
def wcsnicmp (left right : Utf16) (count : ℕ) : Bool :=
  ((cstr left).take count).map foldUnit == ((cstr right).take count).map foldUnit

/-- `_wcsicmp(left.c_str(), right.c_str()) < 0`. -/
def before (left right : Utf16) : Bool :=
  decide ((cstr left).map (fun u => (foldUnit u).toNat) < (cstr right).map fun u => (foldUnit u).toNat)

/-- `std::sort` with this comparison; what it makes of entries that compare equal is not fixed. -/
structure Sorter where
  sort : List Utf16 → List Utf16
  perm : ∀ entries, (sort entries).Perm entries
  sorted : ∀ entries, (sort entries).Pairwise fun left right => before right left = false

/-- The entries of a block, up to an empty one; `current` is in front of the text. -/
def blockEntries (current : Utf16) : Utf16 → List Utf16
  | [] => []
  | u :: rest =>
    if u = 0 then if current = [] then [] else current :: blockEntries [] rest
    else blockEntries (current ++ [u]) rest

/-- Where the name of an entry ends; a name may begin with `=`. -/
def separatorOf : Utf16 → Option ℕ
  | [] => none
  | u :: rest =>
    if u = 0x3d then (rest.findIdx? (· == 0x3d)).map (· + 1) else (u :: rest).findIdx? (· == 0x3d)

/-- The loop over the elements of a path. -/
def filterPath (remove : Utf16 → Bool) (value : Utf16) (start : ℕ) (filtered : Utf16) (keptAny : Bool) : Utf16 :=
  if start ≤ value.length then
    let part := (value.drop start).takeWhile (· != 0x3b)
    let next := if remove part then (filtered, keptAny)
      else ((if keptAny then filtered ++ [0x3b] else filtered) ++ part, true)
    if 0x3b ∈ value.drop start then filterPath remove value (start + part.length + 1) next.1 next.2 else next.1
  else filtered
termination_by value.length + 1 - start

/-- `memcpy` to a place in a buffer; nothing where it would write behind the end. -/
def memcpyAt (buffer : Utf16) (cursor : ℕ) (data : Utf16) : Option Utf16 :=
  if cursor + data.length ≤ buffer.length then
    some (buffer.take cursor ++ data ++ buffer.drop (cursor + data.length))
  else none

/-- The loop that writes the entries. -/
def writeEntries (buffer : Utf16) (cursor : ℕ) : List Utf16 → Option Utf16
  | [] => some buffer
  | entry :: entries => do
    let buffer ← memcpyAt buffer cursor (entry ++ [0])
    writeEntries buffer (cursor + entry.length + 1) entries

section Source

variable (os : Native) (S : Sorter) (shimDirectory : Utf16)

/-- An element of the path that is the directory of the shim; an exception says that it is not. -/
def isShimDirectory (part : Utf16) : Bool :=
  match equalPath os part shimDirectory with
  | .ok equal => !part.isEmpty && equal
  | .error _ => false

/-- One turn of the loop over the block: what becomes of an entry. -/
def sanitizedEntry (entry : Utf16) : Option Utf16 :=
  match separatorOf entry with
  | none => none
  | some separator =>
    let name := entry.take separator
    if wcsnicmp name (literal "VT7_SSH_") 8 then none
    else if wcsicmp name (literal "PATH") then
      let value := entry.drop (separator + 1)
      some (name ++ literal "=" ++ filterPath (isShimDirectory os shimDirectory) value 0 [] false)
    else some entry

/-- `SanitizedEnvironment` of what `GetEnvironmentStringsW` answers; the result is nothing if the buffer is too
small. -/
def sanitizedEnvironment (block : Option Utf16) : Except String (Option Utf16) :=
  match block with
  | none => .error "GetEnvironmentStringsW failed"
  | some block =>
    let entries := S.sort ((blockEntries [] block).filterMap (sanitizedEntry os shimDirectory))
    let units := entries.foldl (fun units entry => units + (entry.length + 1)) 1
    .ok (writeEntries (List.replicate units 0) 0 entries)

end Source

/-! ### Environments -/

/-- A variable of an environment; only the first character of its name may be `=`. -/
structure Variable where
  name : Utf16
  value : Utf16
  name_ne_nil : name ≠ []
  equals_notMem : 0x3d ∉ name.tail
  zero_notMem_name : 0 ∉ name
  zero_notMem_value : 0 ∉ value

namespace Variable

def text (v : Variable) : Utf16 := v.name ++ 0x3d :: v.value

/-- The variable belongs to the shim. -/
def isCapability (v : Variable) : Bool := (v.name.take 8).map foldUnit == (literal "VT7_SSH_").map foldUnit

def isPath (v : Variable) : Bool := v.name.map foldUnit == (literal "PATH").map foldUnit

/-- The variable as the external client sees it. -/
def textWithout (v : Variable) (remove : Utf16 → Bool) : Utf16 :=
  if v.isPath then v.name ++ 0x3d :: [0x3b].intercalate ((v.value.splitOn 0x3b).filter fun part => !remove part)
  else v.text

end Variable

/-- The layout of a block: every entry and the block itself end in a NUL. -/
def environmentBlock (entries : List Utf16) : Utf16 := entries.flatMap (· ++ [0]) ++ [0]

/-! ### Reading -/

lemma blockEntries_append {entry : Utf16} (hzero : 0 ∉ entry) (current rest : Utf16) :
    blockEntries current (entry ++ rest) = blockEntries (current ++ entry) rest := by
  induction entry generalizing current with
  | nil => rw [List.append_nil, List.nil_append]
  | cons u entry ih =>
    have hu : u ≠ 0 := fun h => hzero (h ▸ List.mem_cons_self)
    rw [List.cons_append, blockEntries, if_neg hu, ih fun h => hzero (List.mem_cons_of_mem u h), List.append_assoc]
    rfl

/-- The entries of a block are read back. -/
lemma blockEntries_environmentBlock {entries : List Utf16} (h : ∀ entry ∈ entries, entry ≠ [] ∧ 0 ∉ entry) :
    blockEntries [] (environmentBlock entries) = entries := by
  induction entries with
  | nil => rfl
  | cons entry entries ih =>
    obtain ⟨hne, hzero⟩ := h entry List.mem_cons_self
    unfold environmentBlock at ih ⊢
    rw [List.flatMap_cons, List.append_assoc, List.append_assoc, blockEntries_append hzero, List.nil_append,
      List.singleton_append, blockEntries, if_pos rfl, if_neg hne, ih fun e he => h e (List.mem_cons_of_mem entry he)]

lemma findIdx?_equals {front : Utf16} (h : 0x3d ∉ front) (behind : Utf16) :
    (front ++ 0x3d :: behind).findIdx? (· == 0x3d) = some front.length := by
  have hfront : front.findIdx? (· == 0x3d) = none := by
    refine List.findIdx?_eq_none_iff.mpr fun u hu => beq_false_of_ne ?_
    rintro rfl
    exact h hu
  rw [List.findIdx?_append, hfront]
  simp [List.findIdx?_cons]

lemma Variable.separatorOf_text (v : Variable) : separatorOf v.text = some v.name.length := by
  obtain ⟨name, value, hne, hequals, -, -⟩ := v
  obtain ⟨u, rest, rfl⟩ := List.exists_cons_of_ne_nil hne
  have hrest : 0x3d ∉ rest := hequals
  show (if u = 0x3d then ((rest ++ 0x3d :: value).findIdx? (· == 0x3d)).map (· + 1)
    else ((u :: rest) ++ 0x3d :: value).findIdx? (· == 0x3d)) = _
  split
  next => rw [findIdx?_equals hrest]; rfl
  next hu =>
    refine findIdx?_equals (fun hmem => ?_) value
    rcases List.mem_cons.mp hmem with hmem | hmem
    · exact hu hmem.symm
    · exact hrest hmem

lemma cstr_eq_self {t : Utf16} (h : 0 ∉ t) : cstr t = t := by
  refine List.takeWhile_eq_self_iff.mpr fun u hu => ?_
  rw [bne_iff_ne]
  rintro rfl
  exact h hu

/-! ### The path -/

/-- The elements that the loop adds to those it has. -/
def joinOnto (filtered : Utf16) (keptAny : Bool) (parts : List Utf16) : Utf16 :=
  if keptAny then filtered ++ parts.flatMap (0x3b :: ·) else filtered ++ [0x3b].intercalate parts

lemma intercalate_cons (part : Utf16) (parts : List Utf16) :
    [0x3b].intercalate (part :: parts) = part ++ parts.flatMap (0x3b :: ·) := by
  induction parts generalizing part with
  | nil => rw [List.intercalate_singleton, List.flatMap_nil, List.append_nil]
  | cons next parts ih =>
    rw [List.intercalate_cons_cons, ih, List.flatMap_cons, List.append_assoc]
    rfl

lemma joinOnto_cons (filtered part : Utf16) (keptAny : Bool) (parts : List Utf16) :
    joinOnto filtered keptAny (part :: parts) =
      joinOnto ((if keptAny then filtered ++ [0x3b] else filtered) ++ part) true parts := by
  cases keptAny with
  | true => simp [joinOnto]
  | false => simp [joinOnto, intercalate_cons]

lemma joinOnto_nil (filtered : Utf16) (keptAny : Bool) : joinOnto filtered keptAny [] = filtered := by
  cases keptAny <;> simp [joinOnto]

/-- **The loop over a path** keeps the elements that are not removed, with one separator between them. -/
lemma filterPath_eq (remove : Utf16 → Bool) (value : Utf16) (start : ℕ) (filtered : Utf16) (keptAny : Bool)
    (hstart : start ≤ value.length) : filterPath remove value start filtered keptAny =
      joinOnto filtered keptAny (((value.drop start).splitOn 0x3b).filter fun part => !remove part) := by
  induction hn : value.length - start using Nat.strong_induction_on generalizing start filtered keptAny with
  | _ n ih =>
  subst hn
  have hturn : ∀ parts : List Utf16, ∀ part, joinOnto filtered keptAny ((part :: parts).filter fun p => !remove p) =
      (if remove part then joinOnto filtered keptAny (parts.filter fun p => !remove p)
      else joinOnto ((if keptAny then filtered ++ [0x3b] else filtered) ++ part) true (parts.filter fun p => !remove p)) := by
    intro parts part
    cases hremove : remove part with
    | true => rw [List.filter_cons_of_neg (by rw [hremove]; decide), if_pos rfl]
    | false => rw [List.filter_cons_of_pos (by rw [hremove]; rfl), joinOnto_cons, if_neg Bool.false_ne_true]
  rw [filterPath, if_pos hstart]
  dsimp only
  by_cases hmore : 0x3b ∈ value.drop start
  · -- the element ends at a separator
    obtain ⟨part, tail, heq, hpart⟩ := List.eq_append_cons_of_mem hmore
    have htake : (value.drop start).takeWhile (· != 0x3b) = part := by
      rw [heq, List.takeWhile_append_of_pos, List.takeWhile_cons_of_neg (by decide), List.append_nil]
      intro u hu
      rw [bne_iff_ne]
      rintro rfl
      exact hpart hu
    have hlength := congrArg List.length heq
    rw [List.length_drop, List.length_append, List.length_cons] at hlength
    have htail : value.drop (start + part.length + 1) = tail := by
      rw [Nat.add_assoc, ← List.drop_drop, heq, ← List.drop_drop, List.drop_left]
      rfl
    rw [if_pos hmore, htake, heq, List.splitOn_append_cons_self_of_not_mem hpart, hturn, ← htail]
    cases remove part with
    | true | false => exact ih _ (by omega) _ _ _ (by omega) rfl
  · have htake : (value.drop start).takeWhile (· != 0x3b) = value.drop start := by
      refine List.takeWhile_eq_self_iff.mpr fun u hu => ?_
      rw [bne_iff_ne]
      rintro rfl
      exact hmore hu
    rw [if_neg hmore, htake, List.splitOn_eq_singleton hmore, hturn, List.filter_nil, joinOnto_nil, joinOnto_nil]
    split <;> rfl

/-! ### Writing -/

/-- **The buffer is sized exactly**: the entries are written up to the NUL of the block. -/
lemma writeEntries_eq (entries : List Utf16) (written : Utf16) :
    writeEntries (written ++ List.replicate (environmentBlock entries).length 0) written.length entries =
      some (written ++ environmentBlock entries) := by
  induction entries generalizing written with
  | nil => rfl
  | cons entry entries ih =>
    have hlength : (environmentBlock (entry :: entries)).length =
        (entry ++ [0]).length + (environmentBlock entries).length := by
      unfold environmentBlock
      rw [List.flatMap_cons, List.append_assoc, List.length_append]
    have hnext : environmentBlock (entry :: entries) = entry ++ [0] ++ environmentBlock entries := by
      unfold environmentBlock
      rw [List.flatMap_cons, List.append_assoc]
    have hcopy : memcpyAt (written ++ List.replicate (environmentBlock (entry :: entries)).length 0) written.length
        (entry ++ [0]) = some ((written ++ (entry ++ [0])) ++ List.replicate (environmentBlock entries).length 0) := by
      unfold memcpyAt
      rw [if_pos (by simp only [List.length_append, List.length_replicate, hlength]; omega), List.take_left,
        ← List.drop_drop, List.drop_left, List.drop_replicate, hlength, Nat.add_sub_cancel_left]
    have hrest := ih (written ++ (entry ++ [0]))
    rw [List.length_append, List.length_append, List.length_singleton, ← Nat.add_assoc] at hrest
    rw [writeEntries, hcopy, Option.bind_eq_bind, Option.bind_some, hrest, hnext, List.append_assoc written]

lemma foldl_units (entries : List Utf16) (units : ℕ) :
    entries.foldl (fun units entry => units + (entry.length + 1)) units + 1 =
      units + (environmentBlock entries).length := by
  induction entries generalizing units with
  | nil => rfl
  | cons entry entries ih =>
    rw [List.foldl_cons, ih]
    simp only [environmentBlock, List.flatMap_cons, List.length_append, List.length_singleton]
    omega

/-! ### The whole block -/

lemma Variable.zero_notMem_text (v : Variable) : v.text ≠ [] ∧ 0 ∉ v.text := by
  constructor
  · intro h
    exact v.name_ne_nil (List.append_eq_nil_iff.mp h).1
  · intro h
    rcases List.mem_append.mp h with h | h
    · exact v.zero_notMem_name h
    rcases List.mem_cons.mp h with h | h
    · exact absurd h (by decide)
    · exact v.zero_notMem_value h

section Result

variable (os : Native) (S : Sorter) (shimDirectory : Utf16)

/-- What the loop makes of a variable. -/
lemma sanitizedEntry_text (v : Variable) : sanitizedEntry os shimDirectory v.text =
    if v.isCapability then none else some (v.textWithout (isShimDirectory os shimDirectory)) := by
  have hname : v.text.take v.name.length = v.name := List.take_left
  have hvalue : v.text.drop (v.name.length + 1) = v.value := by
    unfold Variable.text
    rw [← List.drop_drop, List.drop_left]
    rfl
  have hcstr : cstr v.name = v.name := cstr_eq_self v.zero_notMem_name
  have hcapability : wcsnicmp v.name (literal "VT7_SSH_") 8 = v.isCapability := by
    unfold wcsnicmp Variable.isCapability
    rw [hcstr]
    rfl
  have hpath : wcsicmp v.name (literal "PATH") = v.isPath := by
    unfold wcsicmp Variable.isPath
    rw [hcstr]
    rfl
  unfold sanitizedEntry
  rw [v.separatorOf_text]
  dsimp only
  rw [hname, hvalue, hcapability, hpath, filterPath_eq _ _ _ _ _ (Nat.zero_le _)]
  split
  · rfl
  unfold Variable.textWithout
  split
  · rw [List.append_assoc]
    rfl
  · rfl

lemma filterMap_sanitizedEntry (vars : List Variable) :
    (vars.map Variable.text).filterMap (sanitizedEntry os shimDirectory) =
      (vars.filter fun v => !v.isCapability).map fun v => v.textWithout (isShimDirectory os shimDirectory) := by
  induction vars with
  | nil => rfl
  | cons v vars ih =>
    rw [List.map_cons, List.filterMap_cons, sanitizedEntry_text, ih]
    cases hcapability : v.isCapability with
    | true => rw [List.filter_cons_of_neg (by rw [hcapability]; decide)]; rfl
    | false => rw [List.filter_cons_of_pos (by rw [hcapability]; rfl)]; rfl

/-- A path without the directory of the shim is left as it is. -/
lemma Variable.textWithout_of_absent {v : Variable} {remove : Utf16 → Bool}
    (h : ∀ part ∈ v.value.splitOn 0x3b, remove part = false) : v.textWithout remove = v.text := by
  unfold Variable.textWithout
  rw [List.filter_eq_self.mpr fun part hpart => by rw [h part hpart]; rfl, List.intercalate_splitOn]
  exact ite_self _

/-- The directories of the drives are no variables of the shim, and no path. -/
lemma Variable.kept_of_drive {v : Variable} (h : v.name.head? = some 0x3d) :
    v.isCapability = false ∧ v.isPath = false := by
  obtain ⟨u, rest, heq⟩ := List.exists_cons_of_ne_nil v.name_ne_nil
  unfold Variable.isCapability Variable.isPath
  rw [heq] at h ⊢
  obtain rfl := Option.some.inj h
  constructor
  · refine beq_false_of_ne fun hsame => ?_
    exact absurd (List.cons.inj hsame).1 (by decide)
  · refine beq_false_of_ne fun hsame => ?_
    exact absurd (List.cons.inj hsame).1 (by decide)

/-- The block that is returned, and the order of its entries. -/
lemma sanitizedEnvironment_eq (vars : List Variable) :
    sanitizedEnvironment os S shimDirectory (some (environmentBlock (vars.map Variable.text))) =
      .ok (some (environmentBlock (S.sort ((vars.filter fun v => !v.isCapability).map fun v =>
        v.textWithout (isShimDirectory os shimDirectory))))) := by
  have hread : blockEntries [] (environmentBlock (vars.map Variable.text)) = vars.map Variable.text := by
    refine blockEntries_environmentBlock fun entry hentry => ?_
    obtain ⟨v, -, rfl⟩ := List.mem_map.mp hentry
    exact v.zero_notMem_text
  have hunits := foldl_units (S.sort ((vars.filter fun v => !v.isCapability).map fun v =>
    v.textWithout (isShimDirectory os shimDirectory))) 1
  rw [Nat.add_comm] at hunits
  unfold sanitizedEnvironment
  dsimp only
  rw [hread, filterMap_sanitizedEntry, Nat.add_left_cancel hunits]
  exact congrArg Except.ok (writeEntries_eq _ [])

/-- **The environment of the external client** is a block with every variable that is not the shim's, whose
path has lost the directory of the shim and nothing else, in a buffer that it fills. -/
theorem sanitizedEnvironment_spec (vars : List Variable) :
    ∃ kept, sanitizedEnvironment os S shimDirectory (some (environmentBlock (vars.map Variable.text))) =
        .ok (some (environmentBlock kept)) ∧
      kept.Perm ((vars.filter fun v => !v.isCapability).map fun v =>
        v.textWithout (isShimDirectory os shimDirectory)) ∧
      (∀ v ∈ vars, (∀ part ∈ v.value.splitOn 0x3b, isShimDirectory os shimDirectory part = false) →
        v.textWithout (isShimDirectory os shimDirectory) = v.text) ∧
      ∀ v ∈ vars, v.name.head? = some 0x3d → v.text ∈ kept := by
  have hperm := S.perm ((vars.filter fun v => !v.isCapability).map fun v =>
    v.textWithout (isShimDirectory os shimDirectory))
  refine ⟨_, sanitizedEnvironment_eq os S shimDirectory vars, hperm, fun v _ => Variable.textWithout_of_absent, ?_⟩
  intro v hv hdrive
  obtain ⟨hcapability, hpath⟩ := v.kept_of_drive hdrive
  refine hperm.mem_iff.mpr (List.mem_map.mpr ⟨v, List.mem_filter.mpr ⟨hv, by rw [hcapability]; rfl⟩, ?_⟩)
  unfold Variable.textWithout
  rw [hpath]
  rfl

end Result

/-- Merge sort is one such sort. -/
def mergeSorter : Sorter where
  sort entries := entries.mergeSort fun left right => !before right left
  perm entries := List.mergeSort_perm entries _
  sorted entries := by
    refine (@List.pairwise_mergeSort _ (fun left right => !before right left) ?_ ?_ entries).imp fun h => ?_
    · intro a b c hab hbc
      simp only [before, Bool.not_eq_true', decide_eq_false_iff_not, not_lt] at hab hbc ⊢
      exact le_trans hab hbc
    · intro a b
      simp only [before, Bool.or_eq_true, Bool.not_eq_true', decide_eq_false_iff_not, not_lt]
      exact le_total _ _
    · simpa using h

def ownVariable (name value : Utf16) (hname : name ≠ [] ∧ 0x3d ∉ name.tail) (hzero : 0 ∉ name ∧ 0 ∉ value) : Variable :=
  ⟨name, value, hname.1, hname.2, hzero.1, hzero.2⟩

/-- The variables that the shim cannot do without, and no others. -/
def ownVariables : List Variable :=
  [ownVariable (literal "VT7_SSH_CAPABILITY") (literal "paWlpaWlpaWlpaWlpaWlpaWlpaWlpaWlpaWlpaWlpaU")
      (by decide) (by decide),
    ownVariable (literal "VT7_SSH_PIPE") (literal "vt7-ssh-1") (by decide) (by decide),
    ownVariable (literal "VT7_SSH_PROTOCOL") (literal "1") (by decide) (by decide)]

/-- A system whose full paths are the paths themselves. -/
def plainSystem : Native where
  hmacSha256 _ _ := ⟨List.replicate 32 0, rfl⟩
  sha256 _ := ⟨List.replicate 32 0, rfl⟩
  cryptStringToBinary _ := none
  getFullPathName := some

/-- Where no variable is left, the block is a single NUL. -/
theorem sanitizedEnvironment_single :
    sanitizedEnvironment plainSystem mergeSorter (literal "C:")
        (some (environmentBlock (ownVariables.map Variable.text))) = .ok (some [0]) ∧
      ¬[0, 0] <:+ ([0] : Utf16) := by
  refine ⟨(sanitizedEnvironment_eq plainSystem mergeSorter (literal "C:") ownVariables).trans ?_, by decide⟩
  have hnone : (ownVariables.filter fun v => !v.isCapability) = [] := by
    rw [List.filter_eq_nil_iff]
    decide
  rw [hnone, List.map_nil, List.Perm.eq_nil (mergeSorter.perm [])]
  rfl

end VT7.Shim.Program
