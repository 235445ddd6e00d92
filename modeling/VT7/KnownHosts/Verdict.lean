import Mathlib.Data.Set.Insert

/-!
# What a trust verdict depends on

The abstract side of trust resolution.  Reading the known_hosts files yields findings; the verdict on
a key is a function of the *set* of findings alone, by a fixed precedence.  Order and multiplicity
of the findings do not exist at this level, and a verdict that blocks a key for what was found
cannot be undone by finding more.
-/

namespace VT7.KnownHosts

/-- `KnownHostTrustState`. -/
inductive KnownHostTrustState where
  | matching | unknown | changed | revoked | unreadable | policyRejected
  deriving DecidableEq

/-- The lists that the two resolvers collect, by name. -/
inductive Finding where
  | revoked | unreadable | exact | changed | certificatePolicy | authorities
  deriving DecidableEq

namespace Verdict

open Classical in
/-- The precedence on plain keys. -/
noncomputable def plain (isCertificate : Bool) (E : Set Finding) : KnownHostTrustState :=
  if .revoked ∈ E then .revoked
  else if .unreadable ∈ E then .unreadable
  else if isCertificate then .policyRejected
  else if .exact ∈ E then .matching
  else if .changed ∈ E then .changed
  else .unknown

open Classical in
/-- The precedence on certificates; `accepted` is what the certificate says of itself. -/
noncomputable def certificate (accepted : Prop) (E : Set Finding) : KnownHostTrustState :=
  if .revoked ∈ E then .revoked
  else if .unreadable ∈ E then .unreadable
  else if accepted ∧ .authorities ∈ E then .matching
  else .policyRejected

/-- A state in which no later finding can help. -/
def Blocked (s : KnownHostTrustState) : Prop := s = .revoked ∨ s = .unreadable

variable {isCertificate : Bool} {accepted : Prop} {E F : Set Finding}

theorem plain_revoked_iff : plain isCertificate E = .revoked ↔ .revoked ∈ E := by
  unfold plain
  split_ifs <;> simp_all

theorem plain_blocked_iff :
    Blocked (plain isCertificate E) ↔ .revoked ∈ E ∨ .unreadable ∈ E := by
  unfold plain Blocked
  split_ifs <;> simp_all

theorem plain_matching_iff : plain isCertificate E = .matching ↔
    .revoked ∉ E ∧ .unreadable ∉ E ∧ isCertificate = false ∧ .exact ∈ E := by
  unfold plain
  split_ifs <;> simp_all

theorem plain_unknown_iff : plain isCertificate E = .unknown ↔
    .revoked ∉ E ∧ .unreadable ∉ E ∧ isCertificate = false ∧ .exact ∉ E ∧ .changed ∉ E := by
  unfold plain
  split_ifs <;> simp_all

theorem certificate_revoked_iff : certificate accepted E = .revoked ↔ .revoked ∈ E := by
  unfold certificate
  split_ifs <;> simp_all

theorem certificate_blocked_iff :
    Blocked (certificate accepted E) ↔ .revoked ∈ E ∨ .unreadable ∈ E := by
  unfold certificate Blocked
  split_ifs <;> simp_all

theorem certificate_matching_iff : certificate accepted E = .matching ↔
    .revoked ∉ E ∧ .unreadable ∉ E ∧ accepted ∧ .authorities ∈ E := by
  unfold certificate
  split_ifs <;> simp_all

/-- When a finding of the exact key changes nothing. -/
theorem plain_insert_exact_iff : plain false (insert .exact E) = plain false E ↔
    .revoked ∈ E ∨ .unreadable ∈ E ∨ .exact ∈ E := by
  unfold plain
  split_ifs <;> simp_all

/-- When a finding of a different key changes nothing. -/
theorem plain_insert_changed_iff : plain isCertificate (insert .changed E) = plain isCertificate E ↔
    .revoked ∈ E ∨ .unreadable ∈ E ∨ isCertificate = true ∨ .exact ∈ E ∨ .changed ∈ E := by
  unfold plain
  split_ifs <;> simp_all

/-- A verdict, or an exception, in which the two blocking states come first. -/
structure BlocksFirst (verdict : Set Finding → Except String KnownHostTrustState) : Prop where
  revoked : ∀ E, verdict E = .ok .revoked ↔ .revoked ∈ E
  blocked : ∀ E, (∃ s, Blocked s ∧ verdict E = .ok s) ↔ .revoked ∈ E ∨ .unreadable ∈ E

/-- **More findings never lift a block.** -/
theorem BlocksFirst.mono {verdict : Set Finding → Except String KnownHostTrustState}
    (hv : BlocksFirst verdict) (h : E ⊆ F) :
    (verdict E = .ok .revoked → verdict F = .ok .revoked) ∧
      ((∃ s, Blocked s ∧ verdict E = .ok s) → ∃ s, Blocked s ∧ verdict F = .ok s) := by
  rw [hv.revoked, hv.revoked, hv.blocked, hv.blocked]
  exact ⟨fun hr => h hr, Or.imp (fun hr => h hr) fun hu => h hu⟩

theorem plain_blocksFirst : BlocksFirst fun E => .ok (plain isCertificate E) where
  revoked E := by rw [Except.ok.injEq, plain_revoked_iff]
  blocked E := by
    have h : Blocked (plain isCertificate E) ↔ _ := plain_blocked_iff
    rw [← h]
    simp

theorem certificate_blocksFirst : BlocksFirst fun E => .ok (certificate accepted E) where
  revoked E := by rw [Except.ok.injEq, certificate_revoked_iff]
  blocked E := by
    have h : Blocked (certificate accepted E) ↔ _ := certificate_blocked_iff
    rw [← h]
    simp

open Classical in
/-- An exception instead of every state that does not block. -/
theorem error_blocksFirst (message : String) : BlocksFirst fun E =>
    if .revoked ∈ E then .ok .revoked else if .unreadable ∈ E then .ok .unreadable
    else .error message where
  revoked E := by split_ifs <;> simp_all
  blocked E := by split_ifs <;> simp_all [Blocked]

end Verdict

end VT7.KnownHosts
