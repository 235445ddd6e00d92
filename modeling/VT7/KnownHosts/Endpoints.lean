import VT7.KnownHosts.Resolver

/-!
# Host tokens and the endpoints they stand for

The token of a port other than 22 is the host in brackets and the port after a colon; the token of port 22 is the host
alone.  Brackets and colons are characters of hosts too, so a host of port 22 may be spelled like the token of another
endpoint, and then the two endpoints share their token.  Nothing else confuses endpoints: `createHostToken_separates`.
-/

namespace VT7.KnownHosts

open VT7.Dotnet

/-- What a token keeps of a host. -/
def hostPart (host : Text) : Text := (unbracket host).map lowerAscii

/-- The token of a port other than 22. -/
def portToken (part : Text) (port : ℕ) : Text := '[' :: part ++ "]:".toList ++ decimal port

/-- The first host, at port 22, is spelled like the token of the second endpoint. -/
def Spells (h₁ : Text) (p₁ : ℕ) (h₂ : Text) (p₂ : ℕ) : Prop :=
  p₁ = 22 ∧ p₂ ≠ 22 ∧ hostPart h₁ = portToken (hostPart h₂) p₂

/-- A host of port 22 that looks like the token of another port. -/
def LooksPorted (host : Text) (port : ℕ) : Prop :=
  port = 22 ∧ (hostPart host).head? = some '[' ∧ "]:".toList <:+: hostPart host

theorem createHostToken_eq {host : Text} {port : ℕ} {token : Text} (h : createHostToken host port = .ok token) :
    token = if port = 22 then hostPart host else portToken (hostPart host) port := by
  unfold createHostToken at h
  simp only at h
  split_ifs at h with hport hlength hempty hchar h22
  · rw [if_pos h22]
    exact (Except.ok.inj h).symm
  · rw [if_neg h22]
    exact (Except.ok.inj h).symm

/-! ### Two tokens with ports -/

lemma bracket_notMem_decimal (port : ℕ) : ']' ∉ ':' :: decimal port := by
  intro h
  rcases List.mem_cons.mp h with h | h
  · exact absurd h (by decide)
  · exact absurd (Nat.isDigit_of_mem_toDigits (by decide) (by decide) h) (by decide)

lemma portToken_eq (part : Text) (port : ℕ) : portToken part port = ('[' :: part) ++ ']' :: (':' :: decimal port) := by
  unfold portToken
  rw [show "]:".toList = [']', ':'] from rfl, List.append_assoc]
  rfl

/-- Two texts that are cut at their last separators are cut alike. -/
lemma cut_last_inj {a b d e : Text} {c : Char} (h : a ++ c :: d = b ++ c :: e) (hd : c ∉ d) (he : c ∉ e) :
    a = b ∧ d = e := by
  rcases List.append_eq_append_iff.mp h with ⟨u, hb, hrest⟩ | ⟨u, ha, hrest⟩
  · cases u with
    | nil => exact ⟨by rw [hb, List.append_nil], (List.cons.inj hrest).2⟩
    | cons x u =>
      rw [List.cons_append] at hrest
      exact absurd ((List.cons.inj hrest).2 ▸ by simp) hd
  · cases u with
    | nil => exact ⟨by rw [ha, List.append_nil], (List.cons.inj hrest).2.symm⟩
    | cons x u =>
      rw [List.cons_append] at hrest
      exact absurd ((List.cons.inj hrest).2 ▸ by simp) he

theorem portToken_inj {part₁ part₂ : Text} {p₁ p₂ : ℕ} (h : portToken part₁ p₁ = portToken part₂ p₂) :
    p₁ = p₂ ∧ part₁ = part₂ := by
  rw [portToken_eq, portToken_eq] at h
  obtain ⟨hfront, hback⟩ := cut_last_inj h (bracket_notMem_decimal p₁) (bracket_notMem_decimal p₂)
  exact ⟨decimal_inj (List.cons.inj hback).2, (List.cons.inj hfront).2⟩

/-! ### The last index -/

lemma find?_reverse_range {p : ℕ → Bool} {n i : ℕ} (hi : i < n) (hp : p i = true)
    (hlast : ∀ j, i < j → j < n → p j = false) : (List.range n).reverse.find? p = some i := by
  induction n with
  | zero => omega
  | succ n ih =>
    rw [List.range_succ, List.reverse_append, List.reverse_singleton, List.singleton_append]
    by_cases hin : i = n
    · rw [← hin, List.find?_cons_of_pos hp]
    · rw [List.find?_cons_of_neg (by rw [hlast n (by omega) (by omega)]; decide)]
      exact ih (by omega) fun j hij hj => hlast j hij (by omega)

/-- No `]:` begins after the bracket that closes the host. -/
lemma lastIndexOf_portToken (part : Text) (port : ℕ) :
    lastIndexOf "]:".toList (portToken part port) = some (part.length + 1) := by
  have hlength : (portToken part port).length = part.length + 3 + (decimal port).length := by
    rw [portToken_eq]
    simp only [List.length_append, List.length_cons]
    omega
  refine find?_reverse_range (by omega) ?_ fun j hj _ => ?_
  · rw [portToken_eq, List.drop_left' (by rw [List.length_cons])]
    rfl
  · by_contra hfound
    rw [Bool.not_eq_false, List.isPrefixOf_iff_prefix] at hfound
    obtain ⟨rest, hrest⟩ := hfound
    have hmem : ']' ∈ (portToken part port).drop j := by
      rw [← hrest]
      exact List.mem_append_left _ (by decide)
    rw [portToken_eq, List.drop_append, List.drop_eq_nil_of_le (by rw [List.length_cons]; omega), List.nil_append,
      show j - ('[' :: part).length = (j - (part.length + 2)) + 1 by rw [List.length_cons]; omega,
      List.drop_succ_cons] at hmem
    exact bracket_notMem_decimal port (List.mem_of_mem_drop hmem)

/-- **The host part of a token with a port is read back.** -/
theorem certificatePrincipalHost_portToken (part : Text) (port : ℕ) :
    certificatePrincipalHost (portToken part port) = part := by
  unfold certificatePrincipalHost
  rw [lastIndexOf_portToken, if_pos ⟨by simp only [portToken_eq, List.length_append, List.length_cons]; omega, rfl⟩]
  simp only [Nat.succ_pos, if_true, Nat.add_sub_cancel]
  rw [portToken_eq]
  simp

lemma lastIndexOf_eq_none {part text : Text} (hne : part ≠ []) : lastIndexOf part text = none ↔ ¬ part <:+: text := by
  unfold lastIndexOf
  rw [List.find?_eq_none]
  constructor
  · rintro hnone ⟨u, w, rfl⟩
    refine hnone u.length ?_ ?_
    · have := List.length_pos_iff.mpr hne
      rw [List.mem_reverse, List.mem_range, List.length_append, List.length_append]
      omega
    · rw [List.append_assoc, List.drop_left, List.isPrefixOf_iff_prefix]
      exact List.prefix_append part w
  · intro hout index _ hfound
    rw [List.isPrefixOf_iff_prefix] at hfound
    exact hout (hfound.isInfix.trans (List.drop_suffix index text).isInfix)

/-- The host part of a text is the text itself unless it looks like a token with a port. -/
theorem certificatePrincipalHost_eq_self_iff (text : Text) :
    certificatePrincipalHost text = text ↔ ¬ (text.head? = some '[' ∧ "]:".toList <:+: text) := by
  have hnone := @lastIndexOf_eq_none "]:".toList text (by decide)
  unfold certificatePrincipalHost
  by_cases hlooks : text.head? = some '[' ∧ "]:".toList <:+: text
  · refine iff_of_false ?_ (not_not_intro hlooks)
    obtain ⟨hhead, hinside⟩ := hlooks
    obtain ⟨close, hclose⟩ : ∃ close, lastIndexOf "]:".toList text = some close :=
      Option.ne_none_iff_exists'.mp fun h => hnone.mp h hinside
    have hfound := List.find?_some hclose
    rw [List.isPrefixOf_iff_prefix] at hfound
    obtain ⟨first, rest, rfl⟩ : ∃ first rest, text = first :: rest := by
      cases text with
      | nil => cases hhead
      | cons first rest => exact ⟨first, rest, rfl⟩
    obtain rfl : first = '[' := by simpa using hhead
    have hpos : 0 < close := by
      rcases Nat.eq_zero_or_pos close with rfl | hpos
      · exact absurd (List.cons_prefix_cons.mp hfound).1 (by decide)
      · exact hpos
    have hle := hfound.length_le
    rw [List.length_drop, show ("]:".toList).length = 2 from rfl] at hle
    rw [if_pos ⟨by omega, hhead⟩, hclose]
    simp only [hpos, if_true]
    -- what is read back is shorter
    intro hsame
    have hlengths := congrArg List.length hsame
    rw [List.length_take, List.length_drop] at hlengths
    omega
  · refine iff_of_true ?_ hlooks
    split_ifs with hbracket
    · rw [hnone.mpr fun hinside => hlooks ⟨hbracket.2, hinside⟩]
    · rfl

lemma separates_of_default {h₁ h₂ : Text} {p₁ p₂ : ℕ} (hp₁ : p₁ = 22) (hp₂ : p₂ ≠ 22) :
    (hostPart h₁ = portToken (hostPart h₂) p₂ → p₁ = p₂ ∧ hostPart h₁ = hostPart h₂) ↔
      ¬ Spells h₁ p₁ h₂ p₂ ∧ ¬ Spells h₂ p₂ h₁ p₁ := by
  constructor
  · intro h
    exact ⟨fun hs => hp₂ (hp₁ ▸ (h hs.2.2).1.symm), fun hs => hp₂ hs.1⟩
  · intro h heq
    exact absurd ⟨hp₁, hp₂, heq⟩ h.1

lemma certificatePrincipalHost_eq_iff {host : Text} {port : ℕ} {token : Text} (h : createHostToken host port = .ok token) :
    certificatePrincipalHost token = hostPart host ↔ ¬ LooksPorted host port := by
  rw [createHostToken_eq h]
  by_cases hport : port = 22
  · rw [if_pos hport, certificatePrincipalHost_eq_self_iff]
    exact not_congr ⟨fun h => ⟨hport, h⟩, And.right⟩
  · rw [if_neg hport, certificatePrincipalHost_portToken]
    exact iff_of_true rfl fun h => hport h.1

/-- **Host tokens separate endpoints, except for hosts that are spelled like the token of another port**, and the host
part of a token is the host unless that looks like a token with a port. -/
theorem createHostToken_separates {h₁ h₂ : Text} {p₁ p₂ : ℕ} {token₁ token₂ : Text}
    (hc₁ : createHostToken h₁ p₁ = .ok token₁) (hc₂ : createHostToken h₂ p₂ = .ok token₂) :
    ((token₁ = token₂ → p₁ = p₂ ∧ hostPart h₁ = hostPart h₂) ↔ ¬ Spells h₁ p₁ h₂ p₂ ∧ ¬ Spells h₂ p₂ h₁ p₁) ∧
      (certificatePrincipalHost token₁ = hostPart h₁ ↔ ¬ LooksPorted h₁ p₁) ∧
      (certificatePrincipalHost token₂ = hostPart h₂ ↔ ¬ LooksPorted h₂ p₂) := by
  refine ⟨?_, certificatePrincipalHost_eq_iff hc₁, certificatePrincipalHost_eq_iff hc₂⟩
  rw [createHostToken_eq hc₁, createHostToken_eq hc₂]
  by_cases hp₁ : p₁ = 22
  · by_cases hp₂ : p₂ = 22
    · rw [if_pos hp₁, if_pos hp₂]
      exact iff_of_true (fun h => ⟨hp₁.trans hp₂.symm, h⟩) ⟨fun h => h.2.1 hp₂, fun h => h.2.1 hp₁⟩
    · rw [if_pos hp₁, if_neg hp₂]
      exact separates_of_default hp₁ hp₂
  · by_cases hp₂ : p₂ = 22
    · rw [if_neg hp₁, if_pos hp₂]
      refine Iff.trans ⟨fun h heq => ?_, fun h heq => ?_⟩ ((separates_of_default hp₂ hp₁).trans and_comm)
      · obtain ⟨hport, hpart⟩ := h heq.symm
        exact ⟨hport.symm, hpart.symm⟩
      · obtain ⟨hport, hpart⟩ := h heq.symm
        exact ⟨hport.symm, hpart.symm⟩
    · rw [if_neg hp₁, if_neg hp₂]
      exact iff_of_true portToken_inj ⟨fun h => hp₁ h.1, fun h => hp₂ h.1⟩

/-- Two spellings of one endpoint. -/
theorem createHostToken_separates_sample : hostPart "[Example.com]".toList = hostPart "EXAMPLE.COM".toList := by
  have h := @createHostToken_separates "[Example.com]".toList "EXAMPLE.COM".toList 2222 2222 _ _ rfl rfl
  exact (h.1.mpr ⟨fun h => absurd h.1 (by decide), fun h => absurd h.1 (by decide)⟩ (by decide)).2

/-- **A host of port 22 with the token of another host at port 2222.** -/
theorem shared_hostToken : createHostToken "[x]:2222".toList 22 = .ok "[x]:2222".toList ∧
    createHostToken "x".toList 2222 = .ok "[x]:2222".toList ∧
    certificatePrincipalHost "[x]:2222".toList ≠ hostPart "[x]:2222".toList := by
  refine ⟨by decide, by decide, by decide⟩

end VT7.KnownHosts
