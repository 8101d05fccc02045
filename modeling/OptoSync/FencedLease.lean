import Mathlib

/-!
# Fenced leases

Leases over keys are handed out under fence numbers, can be renewed, released and left to expire.
A history lists, oldest first, what was granted, renewed, released and committed under a lease; it
is fenced if every grant is above the earlier ones and every commit is under the lease in force.
-/
namespace OptoSync.FencedLease

variable {κ τ : Type*} [DecidableEq κ] [DecidableEq τ]

structure Lease (τ : Type*) where
  token : τ
  fence : ℕ
  expiresAt : ℕ

inductive Entry (κ τ : Type*)
  | granted (key : κ) (lease : Lease τ)
  | renewed (key : κ) (lease : Lease τ)
  | released (key : κ) (token : τ) (fence : ℕ)
  | committed (key : κ) (token : τ) (fence : ℕ) (readings : List ℕ)

def Lease.Matches (lease : Lease τ) (token : τ) (fence : ℕ) : Prop :=
  lease.token = token ∧ lease.fence = fence

instance (lease : Lease τ) (token : τ) (fence : ℕ) : Decidable (lease.Matches token fence) :=
  inferInstanceAs (Decidable (_ ∧ _))

/-- The lease on `key` after one more entry. -/
def leaseStep (key : κ) (current : Option (Lease τ)) : Entry κ τ → Option (Lease τ)
  | .granted k lease => if k = key then some lease else current
  | .renewed k lease =>
    if k = key then
      current.map fun held => if held.Matches lease.token lease.fence then lease else held
    else current
  | .released k token fence =>
    if k = key then current.filter fun held => ¬ held.Matches token fence else current
  | .committed .. => current

/-- The lease on `key` that was granted last, as renewed since, unless it was released. -/
def leaseAfter (key : κ) (history : List (Entry κ τ)) : Option (Lease τ) :=
  history.foldl (leaseStep key) none

def grantedFence (key : κ) : Entry κ τ → Option ℕ
  | .granted k lease => if k = key then some lease.fence else none
  | _ => none

def committedFence (key : κ) : Entry κ τ → Option ℕ
  | .committed k _ fence _ => if k = key then some fence else none
  | _ => none

def grantedFences (key : κ) (history : List (Entry κ τ)) : List ℕ :=
  history.filterMap (grantedFence key)

def committedFences (key : κ) (history : List (Entry κ τ)) : List ℕ :=
  history.filterMap (committedFence key)

/-- The fence is the one granted last, its lease is not released and has not expired at any of the
readings. -/
def InForce (history : List (Entry κ τ)) (key : κ) (token : τ) (fence : ℕ)
    (readings : List ℕ) : Prop :=
  (grantedFences key history).getLast? = some fence ∧
    ∃ lease, leaseAfter key history = some lease ∧ lease.Matches token fence ∧
      ∀ now ∈ readings, now < lease.expiresAt

def Admissible (history : List (Entry κ τ)) : Entry κ τ → Prop
  | .granted key lease => ∀ fence ∈ grantedFences key history, fence < lease.fence
  | .committed key token fence readings => InForce history key token fence readings
  | _ => True

def Fenced (history : List (Entry κ τ)) : Prop :=
  ∀ before entry after, history = before ++ entry :: after → Admissible before entry

@[simp] theorem leaseAfter_nil (key : κ) : leaseAfter key ([] : List (Entry κ τ)) = none := rfl

@[simp] theorem leaseAfter_concat (key : κ) (history : List (Entry κ τ)) (entry : Entry κ τ) :
    leaseAfter key (history ++ [entry]) = leaseStep key (leaseAfter key history) entry := by
  simp [leaseAfter]

omit [DecidableEq τ]

@[simp] theorem grantedFences_nil (key : κ) : grantedFences key ([] : List (Entry κ τ)) = [] := rfl

@[simp] theorem grantedFences_concat (key : κ) (history : List (Entry κ τ)) (entry : Entry κ τ) :
    grantedFences key (history ++ [entry]) =
      grantedFences key history ++ (grantedFence key entry).toList := by
  cases hg : grantedFence key entry <;> simp [grantedFences, hg]

@[simp] theorem committedFences_concat (key : κ) (history : List (Entry κ τ))
    (entry : Entry κ τ) :
    committedFences key (history ++ [entry]) =
      committedFences key history ++ (committedFence key entry).toList := by
  cases hc : committedFence key entry <;> simp [committedFences, hc]

theorem grantedFence_eq_some {key : κ} {entry : Entry κ τ} {fence : ℕ} :
    grantedFence key entry = some fence ↔
      ∃ lease, entry = .granted key lease ∧ lease.fence = fence := by
  cases entry with
  | granted k lease =>
    by_cases hk : k = key
    · simp [grantedFence, hk]
    · simp [grantedFence, hk]
  | renewed k lease => simp [grantedFence]
  | released k token fence => simp [grantedFence]
  | committed k token fence readings => simp [grantedFence]

theorem committedFence_eq_some {key : κ} {entry : Entry κ τ} {fence : ℕ} :
    committedFence key entry = some fence ↔
      ∃ token readings, entry = .committed key token fence readings := by
  cases entry with
  | committed k token committed readings =>
    by_cases hk : k = key
    · simp [committedFence, hk]
    · simp [committedFence, hk]
  | granted k lease => simp [committedFence]
  | renewed k lease => simp [committedFence]
  | released k token fence => simp [committedFence]

theorem pairwise_append_toList {α : Type*} {r : α → α → Prop} {l : List α} {next : Option α}
    (h : l.Pairwise r) (hnext : ∀ b, next = some b → ∀ a ∈ l, r a b) :
    (l ++ next.toList).Pairwise r := by
  cases next with
  | none => simpa using h
  | some b =>
    rw [Option.toList_some, List.pairwise_append]
    refine ⟨h, List.pairwise_singleton r b, ?_⟩
    intro a ha c hc
    rw [List.mem_singleton.mp hc]
    exact hnext b rfl a ha

variable [DecidableEq τ]

theorem fenced_nil : Fenced ([] : List (Entry κ τ)) := by
  intro before entry after h
  simp at h

theorem fenced_concat {history : List (Entry κ τ)} {entry : Entry κ τ} :
    Fenced (history ++ [entry]) ↔ Fenced history ∧ Admissible history entry := by
  constructor
  · intro h
    refine ⟨fun before e after he => h before e (after ++ [entry]) (by simp [he]), ?_⟩
    exact h history entry [] rfl
  · rintro ⟨h, ha⟩ before e after he
    induction after using List.reverseRecOn with
    | nil =>
      obtain ⟨rfl, hlast⟩ := List.append_inj' he rfl
      rw [← List.singleton_inj.mp hlast]
      exact ha
    | append_singleton after last =>
      rw [← List.cons_append, ← List.append_assoc] at he
      exact h before e after (List.append_inj' he rfl).1

/-- The lease in force carries the fence granted last. -/
theorem getLast_grantedFences {key : κ} {history : List (Entry κ τ)} {lease : Lease τ}
    (h : leaseAfter key history = some lease) :
    (grantedFences key history).getLast? = some lease.fence := by
  induction history using List.reverseRecOn generalizing lease with
  | nil => simp at h
  | append_singleton history entry ih =>
    rw [leaseAfter_concat] at h
    cases entry with
    | granted k granted =>
      by_cases hk : k = key
      · simp only [leaseStep, hk, if_true, Option.some.injEq] at h
        simp [grantedFence, hk, h]
      · simp only [leaseStep, hk, if_false] at h
        simpa [grantedFence, hk] using ih h
    | renewed k renewed =>
      obtain ⟨held, hheld, he⟩ : ∃ held, leaseAfter key history = some held ∧
          held.fence = lease.fence := by
        by_cases hk : k = key
        · simp only [leaseStep, hk, if_true, Option.map_eq_some_iff] at h
          obtain ⟨held, hheld, rfl⟩ := h
          refine ⟨held, hheld, ?_⟩
          split
          · rename_i hm
            exact hm.2
          · rfl
        · exact ⟨lease, by simpa [leaseStep, hk] using h, rfl⟩
      simpa [grantedFence, he] using ih hheld
    | released k token fence =>
      have hheld : leaseAfter key history = some lease := by
        by_cases hk : k = key
        · simp only [leaseStep, hk, if_true] at h
          exact (Option.filter_eq_some_iff.mp h).1
        · simpa [leaseStep, hk] using h
      simpa [grantedFence] using ih hheld
    | committed k token fence readings => simpa [grantedFence, leaseStep] using ih h

theorem Fenced.grants_increasing {history : List (Entry κ τ)} (h : Fenced history) (key : κ) :
    (grantedFences key history).Pairwise (· < ·) := by
  induction history using List.reverseRecOn with
  | nil => simp
  | append_singleton history entry ih =>
    obtain ⟨hf, ha⟩ := fenced_concat.mp h
    rw [grantedFences_concat]
    apply pairwise_append_toList (ih hf)
    intro fence hfence
    obtain ⟨lease, rfl, rfl⟩ := grantedFence_eq_some.mp hfence
    exact ha

/-- A committed fence was granted. -/
theorem Fenced.committed_mem {history : List (Entry κ τ)} (h : Fenced history) {key : κ} {fence : ℕ}
    (hm : fence ∈ committedFences key history) : fence ∈ grantedFences key history := by
  induction history using List.reverseRecOn with
  | nil => simp [committedFences] at hm
  | append_singleton history entry ih =>
    obtain ⟨hf, ha⟩ := fenced_concat.mp h
    rw [committedFences_concat, List.mem_append] at hm
    rw [grantedFences_concat, List.mem_append]
    left
    rcases hm with hm | hm
    · exact ih hf hm
    · obtain ⟨token, readings, rfl⟩ := committedFence_eq_some.mp (Option.mem_toList.mp hm)
      exact List.mem_of_getLast? ha.1

theorem le_getLast {l : List ℕ} (h : l.Pairwise (· < ·)) {a b : ℕ} (ha : a ∈ l)
    (hb : l.getLast? = some b) : a ≤ b := by
  obtain ⟨l, rfl⟩ := List.getLast?_eq_some_iff.mp hb
  rw [List.pairwise_append] at h
  rcases List.mem_append.mp ha with ha | ha
  · exact (h.2.2 a ha b (by simp)).le
  · simp only [List.mem_singleton] at ha
    exact ha.le

theorem Fenced.commits_nondecreasing {history : List (Entry κ τ)} (h : Fenced history) (key : κ) :
    (committedFences key history).Pairwise (· ≤ ·) := by
  induction history using List.reverseRecOn with
  | nil => simp [committedFences]
  | append_singleton history entry ih =>
    obtain ⟨hf, ha⟩ := fenced_concat.mp h
    rw [committedFences_concat]
    apply pairwise_append_toList (ih hf)
    intro fence hfence earlier hm
    obtain ⟨token, readings, rfl⟩ := committedFence_eq_some.mp hfence
    exact le_getLast (hf.grants_increasing key) (hf.committed_mem hm) ha.1

end OptoSync.FencedLease
