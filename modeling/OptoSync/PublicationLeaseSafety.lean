import OptoSync.PublicationLease

/-!
# Exclusive publication

What every run of publishers and cleanups keeps, as long as no lease file is unlinked under a
publisher that has checked it. `BundleLease::drop` unlinks after the unlock and outside the root
guard, so the steps alone do not exclude that.
-/
namespace OptoSync.Publication

open Transition

namespace Stage

/-- The reservation is the publisher's own and not given back yet. -/
def reserved : Stage → Bool
  | checkDestination | reserve | unlock => false
  | _ => true

/-- The staging directory that is the publisher's own. -/
def staging : Stage → Option String
  | openFile name _ | writeFile name _ | syncStaging name | recheckBeforeRename name | rename name
  | removeStaging name => some name
  | _ => none

/-- What the publisher has written to it, unless it removes it. -/
def directory : Stage → Option (String × Directory)
  | openFile name file => some (name, Directory.before file)
  | writeFile name file => some (name, Function.update (Directory.before file) file (some false))
  | syncStaging name | recheckBeforeRename name | rename name => some (name, Directory.full)
  | _ => none

end Stage

namespace Run

/-- The bundle whose lease the run has acquired and not released. -/
def holder : Run → Option String
  | leased bundle _ | publishing bundle _ _ => some bundle.text
  | _ => none

def reserves : Run → Option String
  | publishing bundle _ stage => if stage.reserved then some bundle.text else none
  | _ => none

def directory : Run → Option (String × Directory)
  | publishing _ _ stage => stage.directory
  | _ => none

/-- The bundle and inode of a lease file that a publisher has found linked. -/
def checked : Run → Option (String × ℕ)
  | lockLease bundle inode | leased bundle inode | publishing bundle inode _ =>
    some (bundle.text, inode)
  | _ => none

end Run

/-- One publisher for a bundle is past the acquisition of its lease; reservation and staging
directory of a live publisher are as it left them; every visible bundle is complete. -/
structure Safe (w : World) : Prop where
  exclusive : ∀ p q b, (w.runs p).holder = some b → (w.runs q).holder = some b → p = q
  reserved : ∀ p b, (w.runs p).reserves = some b → w.reservation b = true
  staged : ∀ p name d, (w.runs p).directory = some (name, d) → w.staging name = some d
  complete : ∀ b d, w.published b = some d → d.Complete

/-- The step does not unlink a lease file that a publisher has checked. -/
def UnlinksUnused (w : World) (event : ℕ × Action) : Prop :=
  event.2 = .proceed → ∀ bundle, w.runs event.1 = .unlinkLease bundle →
    ∀ q inode, (w.runs q).checked ≠ some (bundle.text, inode)

theorem Stage.staging_of_directory {s : Stage} {name : String} {d : Directory}
    (h : s.directory = some (name, d)) : s.staging = some name := by
  cases s with
  | openFile _ _ | writeFile _ _ | syncStaging _ | recheckBeforeRename _ | rename _ =>
    exact congrArg (Option.map Prod.fst) h
  | _ => exact absurd h (by simp [Stage.directory])

namespace Run

/-- The bundle and inode of a lease file that cleanup has found linked. -/
def probing : Run → Option (String × ℕ)
  | probeLock target inode | probed target inode => target.bundle.map fun b => (b, inode)
  | _ => none

/-- The bundle without a publisher, as cleanup has found. -/
def vacated : Run → Option String
  | probed target _ | remove target => target.bundle
  | _ => none

/-- The bundle and the name of its staging directory. -/
def named : Run → Option (String × String)
  | publishing bundle _ stage => stage.staging.map fun name => (bundle.text, name)
  | _ => none

variable {r : Run} {b : String}

theorem checked_of_holder (h : r.holder = some b) :
    ∃ i, r.checked = some (b, i) ∧ r.lock = some i := by
  cases r with
  | leased bundle i | publishing bundle i stage =>
    obtain rfl := Option.some.inj h
    exact ⟨i, rfl, rfl⟩
  | _ => exact absurd h (by simp [holder])

theorem holder_of_reserves (h : r.reserves = some b) : r.holder = some b := by
  cases r with
  | publishing bundle i stage =>
    simp only [reserves] at h
    split at h
    · exact h
    · exact absurd h (by simp)
  | _ => exact absurd h (by simp [reserves])

theorem holder_of_named {name : String} (h : r.named = some (b, name)) : r.holder = some b := by
  cases r with
  | publishing bundle i stage =>
    obtain ⟨n, -, hn⟩ := Option.map_eq_some_iff.mp h
    simpa [holder] using congrArg Prod.fst hn
  | _ => exact absurd h (by simp [named])

theorem named_of_directory {name : String} {d : Directory} (h : r.directory = some (name, d)) :
    ∃ b, r.named = some (b, name) := by
  cases r with
  | publishing bundle i stage =>
    have hs : stage.staging = some name := Stage.staging_of_directory h
    exact ⟨bundle.text, by simp [named, hs]⟩
  | _ => exact absurd h (by simp [directory])

theorem guarded_of_vacated (h : r.vacated = some b) : r.guarded = true ∧ r.holder = none := by
  cases r with
  | probed target i => exact ⟨rfl, rfl⟩
  | remove target => exact ⟨rfl, rfl⟩
  | _ => exact absurd h (by simp [vacated])

theorem guarded_of_probing {i : ℕ} (h : r.probing = some (b, i)) : r.guarded = true := by
  cases r with
  | probeLock target j => rfl
  | probed target j => rfl
  | _ => exact absurd h (by simp [probing])

theorem guarded_or_holder_of_checked {i : ℕ} (h : r.checked = some (b, i)) :
    r.guarded = true ∨ r.holder = some b := by
  cases r with
  | lockLease bundle j => exact .inl rfl
  | leased bundle j => exact .inl rfl
  | publishing bundle j stage => exact .inr (congrArg (Option.map Prod.fst) h)
  | _ => exact absurd h (by simp [checked])

end Run

/-- The run's view of the root: what it holds, what it has checked, and what it owns. -/
structure Fits (w : World) (p : ℕ) (r : Run) : Prop where
  guarded : r.guarded = true → w.guard = some p
  locked : ∀ i, r.lock = some i → w.locks i = some p
  linked : ∀ b i, r.checked = some (b, i) → w.leaseFile b = some i
  probing : ∀ b i, r.probing = some (b, i) → ∀ j, w.leaseFile b = some j → j = i
  reserved : ∀ b, r.reserves = some b → w.reservation b = true
  staged : ∀ name d, r.directory = some (name, d) → w.staging name = some d
  named : ∀ b name, r.named = some (b, name) → stagingBundleId name = some b

structure Invariant (w : World) : Prop where
  fits : ∀ p, Fits w p (w.runs p)
  vacant : ∀ p q b, (w.runs p).vacated = some b → (w.runs q).holder ≠ some b
  complete : ∀ b d, w.published b = some d → d.Complete

variable {w w' : World} {p q : ℕ}

namespace Invariant

theorem guard_unique (h : Invariant w) (hp : (w.runs p).guarded = true)
    (hq : (w.runs q).guarded = true) : p = q :=
  Option.some.inj (((h.fits p).guarded hp).symm.trans ((h.fits q).guarded hq))

theorem exclusive (h : Invariant w) {b : String} (hp : (w.runs p).holder = some b)
    (hq : (w.runs q).holder = some b) : p = q := by
  obtain ⟨i, hpc, hpl⟩ := Run.checked_of_holder hp
  obtain ⟨j, hqc, hql⟩ := Run.checked_of_holder hq
  have hij : i = j :=
    Option.some.inj (((h.fits p).linked b i hpc).symm.trans ((h.fits q).linked b j hqc))
  subst hij
  exact Option.some.inj (((h.fits p).locked i hpl).symm.trans ((h.fits q).locked i hql))

theorem safe (h : Invariant w) : Safe w where
  exclusive _ _ _ hp hq := h.exclusive hp hq
  reserved p b hb := (h.fits p).reserved b hb
  staged p name d hd := (h.fits p).staged name d hd
  complete := h.complete

end Invariant

/-- The other runs still fit when only what the step writes has changed. -/
def Undisturbed (w : World) (p : ℕ) (w' : World) : Prop := ∀ q, q ≠ p → Fits w' q (w.runs q)

namespace Invariant

theorem undisturbed_self (h : Invariant w) : Undisturbed w p w := fun q _ => h.fits q

theorem takeGuard (h : Invariant w) (hfree : w.guard = none) :
    Undisturbed w p (w.setGuard (some p)) := by
  intro q _
  refine { h.fits q with guarded := fun hg => ?_ }
  have hq := (h.fits q).guarded hg
  rw [hfree] at hq
  exact absurd hq (by simp)

theorem releaseGuard (h : Invariant w) (hp : (w.runs p).guarded = true) :
    Undisturbed w p (w.setGuard none) := by
  intro q hq
  exact { h.fits q with guarded := fun hg => absurd (h.guard_unique hg hp) hq }

theorem takeLock {inode : ℕ} (h : Invariant w) (hfree : w.locks inode = none) :
    Undisturbed w p (w.setLock inode (some p)) := by
  intro q _
  refine { h.fits q with locked := fun i hi => ?_ }
  have hq := (h.fits q).locked i hi
  have hne : i ≠ inode := by
    rintro rfl
    rw [hfree] at hq
    exact absurd hq (by simp)
  simpa [World.setLock, hne] using hq

theorem releaseLock {inode : ℕ} (h : Invariant w) (hp : (w.runs p).lock = some inode) :
    Undisturbed w p (w.setLock inode none) := by
  intro q hne
  refine { h.fits q with locked := fun i hi => ?_ }
  have hq := (h.fits q).locked i hi
  have hi : i ≠ inode := by
    rintro rfl
    exact hne (Option.some.inj (hq.symm.trans ((h.fits p).locked i hp)))
  simpa [World.setLock, hi] using hq

/-- Lease files are created under the guard, so cleanup does not probe meanwhile. -/
theorem createLease {b : String} (h : Invariant w) (hp : (w.runs p).guarded = true)
    (hfree : w.leaseFile b = none) : Undisturbed w p (w.createLease b) := by
  intro q hne
  refine { h.fits q with
    linked := fun c i hi => ?_
    probing := fun c i hi => absurd (h.guard_unique (Run.guarded_of_probing hi) hp) hne }
  have hq := (h.fits q).linked c i hi
  have hc : c ≠ b := by
    rintro rfl
    rw [hfree] at hq
    exact absurd hq (by simp)
  simpa [World.createLease, hc] using hq

theorem removeLease {b : String} (h : Invariant w)
    (hunused : ∀ q, q ≠ p → ∀ i, (w.runs q).checked ≠ some (b, i)) :
    Undisturbed w p (w.removeLease b) := by
  intro q hne
  refine { h.fits q with
    linked := fun c i hi => ?_
    probing := fun c i hi j hj => ?_ }
  · have hc : c ≠ b := by
      rintro rfl
      exact hunused q hne i hi
    simpa [World.removeLease, hc] using (h.fits q).linked c i hi
  · by_cases hc : c = b
    · subst hc
      exact absurd hj (by simp [World.removeLease])
    · exact (h.fits q).probing c i hi j (by simpa [World.removeLease, hc] using hj)

theorem takeReservation {b : String} (h : Invariant w) :
    Undisturbed w p (w.setReservation b true) := by
  intro q _
  refine { h.fits q with reserved := fun c hc => ?_ }
  by_cases hcb : c = b
  · subst hcb
    simp [World.setReservation]
  · simpa [World.setReservation, hcb] using (h.fits q).reserved c hc

theorem releaseReservation {b : String} (h : Invariant w)
    (hvacant : ∀ q, q ≠ p → (w.runs q).holder ≠ some b) :
    Undisturbed w p (w.setReservation b false) := by
  intro q hne
  refine { h.fits q with reserved := fun c hc => ?_ }
  have hcb : c ≠ b := by
    rintro rfl
    exact hvacant q hne (Run.holder_of_reserves hc)
  simpa [World.setReservation, hcb] using (h.fits q).reserved c hc

/-- A staging directory is changed where no other run holds the lease of the bundle in its name. -/
theorem setStaging {name : String} {d : Option Directory} (h : Invariant w)
    (hvacant : ∀ q, q ≠ p → ∀ b, stagingBundleId name = some b → (w.runs q).holder ≠ some b) :
    Undisturbed w p (w.setStaging name d) := by
  intro q hne
  refine { h.fits q with staged := fun n e hn => ?_ }
  have hnn : n ≠ name := by
    rintro rfl
    obtain ⟨b, hb⟩ := Run.named_of_directory hn
    exact hvacant q hne b ((h.fits q).named b n hb) (Run.holder_of_named hb)
  simpa [World.setStaging, hnn] using (h.fits q).staged n e hn

/-- The other runs hold no lease that this one holds. -/
theorem others_vacant {b : String} (h : Invariant w) (hp : (w.runs p).holder = some b) :
    ∀ q, q ≠ p → (w.runs q).holder ≠ some b :=
  fun _ hne hq => hne (h.exclusive hq hp)

/-- A step that leaves the other runs undisturbed and moves its own to where it fits. A lease is
acquired under the guard, so not while cleanup has found it vacant. -/
theorem move {r : Run} (h : Invariant w) (hruns : w'.runs = w.runs) (hothers : Undisturbed w p w')
    (hown : Fits w' p r)
    (hholder : ∀ b, r.holder = some b → (w.runs p).holder = some b ∨ (w.runs p).guarded = true)
    (hvacant : ∀ b, r.vacated = some b → ∀ q, q ≠ p → (w.runs q).holder ≠ some b)
    (hcomplete : ∀ b d, w'.published b = some d → d.Complete) : Invariant (w'.move p r) where
  fits q := by
    by_cases hq : q = p
    · subst hq
      simpa [World.move] using { hown with }
    · simpa [World.move, hq, hruns] using { hothers q hq with }
  vacant q s b hq hs := by
    by_cases hqp : q = p <;> by_cases hsp : s = p
    · subst hqp hsp
      simp only [World.move, Function.update_self] at hq hs
      rw [(Run.guarded_of_vacated hq).2] at hs
      exact absurd hs (by simp)
    · subst hqp
      simp only [World.move, Function.update_self, Function.update_of_ne hsp, hruns] at hq hs
      exact hvacant b hq s hsp hs
    · subst hsp
      simp only [World.move, Function.update_self, Function.update_of_ne hqp, hruns] at hq hs
      rcases hholder b hs with hold | hguard
      · exact h.vacant q s b hq hold
      · exact hqp (h.guard_unique (Run.guarded_of_vacated hq).1 hguard)
    · simp only [World.move, Function.update_of_ne hqp, Function.update_of_ne hsp, hruns] at hq hs
      exact h.vacant q s b hq hs
  complete := hcomplete

end Invariant

/-! ## Steps of a publisher -/

namespace Directory

theorem before_self (file : ReportFile) : before file file = none := by
  simp [before]

/-- With the last of its files the directory is full. -/
theorem update_before (file : ReportFile) :
    Function.update (before file) file (some true) =
      match file.after with
      | some f => before f
      | none => full := by
  funext f
  cases file <;> cases f <;> rfl

end Directory

section Publishing

variable {bundle : BundleId} {inode : ℕ} {s s' : Stage}

theorem Stage.reserved_of_abandon (h : s.abandon.reserved = true) : s.reserved = true := by
  cases s <;> first | rfl | exact absurd h (by simp [Stage.abandon, Stage.reserved])

theorem Stage.staging_of_abandon {name : String} (h : s.abandon.staging = some name) :
    s.staging = some name := by
  cases s <;> first | exact h | exact absurd h (by simp [Stage.abandon, Stage.staging])

theorem Stage.directory_abandon : s.abandon.directory = none := by
  cases s <;> rfl

namespace Fits

theorem reservation_present (h : Fits w p (.publishing bundle inode s)) (hs : s.reserved = true) :
    w.reservation bundle.text = true :=
  h.reserved bundle.text (by simp [Run.reserves, hs])

theorem staging_named {name : String} (h : Fits w p (.publishing bundle inode s))
    (hs : s.staging = some name) : stagingBundleId name = some bundle.text :=
  h.named bundle.text name (by simp [Run.named, hs])

theorem stage (h : Fits w p (.publishing bundle inode s)) (hlocks : w'.locks = w.locks)
    (hlease : w'.leaseFile = w.leaseFile)
    (hreserved : s'.reserved = true → w'.reservation bundle.text = true)
    (hstaged : ∀ name d, s'.directory = some (name, d) → w'.staging name = some d)
    (hnamed : ∀ name, s'.staging = some name → stagingBundleId name = some bundle.text) :
    Fits w' p (.publishing bundle inode s') where
  guarded hg := absurd hg (by simp [Run.guarded])
  locked i hi := by
    rw [hlocks]
    exact h.locked i hi
  linked b i hb := by
    rw [hlease]
    exact h.linked b i hb
  probing b i hb := absurd hb (by simp [Run.probing])
  reserved b hb := by
    simp only [Run.reserves] at hb
    split at hb
    · rename_i hs
      obtain rfl := Option.some.inj hb
      exact hreserved hs
    · exact absurd hb (by simp)
  staged name d hd := hstaged name d hd
  named b name hb := by
    obtain ⟨n, hn, heq⟩ := Option.map_eq_some_iff.mp hb
    obtain ⟨rfl, rfl⟩ := Prod.mk.inj heq
    exact hnamed n hn

end Fits

namespace Invariant

theorem stage (h : Invariant w) (hp : w.runs p = .publishing bundle inode s)
    (hruns : w'.runs = w.runs) (hothers : Undisturbed w p w') (hlocks : w'.locks = w.locks)
    (hlease : w'.leaseFile = w.leaseFile)
    (hreserved : s'.reserved = true → w'.reservation bundle.text = true)
    (hstaged : ∀ name d, s'.directory = some (name, d) → w'.staging name = some d)
    (hnamed : ∀ name, s'.staging = some name → stagingBundleId name = some bundle.text)
    (hcomplete : ∀ b d, w'.published b = some d → d.Complete) :
    Invariant (w'.move p (.publishing bundle inode s')) := by
  have hf : Fits w p (.publishing bundle inode s) := hp ▸ h.fits p
  refine h.move hruns hothers (hf.stage hlocks hlease hreserved hstaged hnamed) ?_ ?_ hcomplete
  · intro b hb
    rw [hp]
    exact .inl hb
  · intro b hb
    exact absurd hb (by simp [Run.vacated])

/-- A call that writes nothing, after which the publisher owns no more than before. -/
theorem idleStage (h : Invariant w) (hp : w.runs p = .publishing bundle inode s)
    (hreserved : s'.reserved = true → s.reserved = true)
    (hstaged : ∀ x, s'.directory = some x → s.directory = some x)
    (hnamed : ∀ name, s'.staging = some name → s.staging = some name) :
    Invariant (w.move p (.publishing bundle inode s')) := by
  have hf : Fits w p (.publishing bundle inode s) := hp ▸ h.fits p
  refine h.stage hp rfl h.undisturbed_self rfl rfl ?_ ?_ ?_ h.complete
  · exact fun hs => hf.reservation_present (hreserved hs)
  · exact fun name d hd => hf.staged name d (hstaged _ hd)
  · exact fun name hn => hf.staging_named (hnamed name hn)

theorem abandon (h : Invariant w) (hp : w.runs p = .publishing bundle inode s) :
    Invariant (w.move p (.publishing bundle inode s.abandon)) := by
  refine h.idleStage hp Stage.reserved_of_abandon ?_ fun name => Stage.staging_of_abandon
  intro x hx
  rw [Stage.directory_abandon] at hx
  exact absurd hx (by simp)

/-- A change of the publisher's own staging directory. -/
theorem stageStaging {name : String} {d : Option Directory} (h : Invariant w)
    (hp : w.runs p = .publishing bundle inode s) (hres : s.reserved = true)
    (hname : stagingBundleId name = some bundle.text)
    (hstaged : ∀ n e, s'.directory = some (n, e) → n = name ∧ d = some e)
    (hnamed : ∀ n, s'.staging = some n → n = name) :
    Invariant ((w.setStaging name d).move p (.publishing bundle inode s')) := by
  have hf : Fits w p (.publishing bundle inode s) := hp ▸ h.fits p
  have hothers : Undisturbed w p (w.setStaging name d) := by
    refine h.setStaging fun q hq b hb => ?_
    obtain rfl := Option.some.inj (hname.symm.trans hb)
    exact h.others_vacant (by rw [hp]; rfl) q hq
  refine h.stage hp rfl hothers rfl rfl (fun _ => hf.reservation_present hres) ?_ ?_ h.complete
  · intro n e hn
    obtain ⟨rfl, rfl⟩ := hstaged n e hn
    simp [World.setStaging]
  · intro n hn
    rw [hnamed n hn]
    exact hname

theorem create (h : Invariant w) (processId : UInt32) (sequence : UInt64) :
    Invariant (w.create p processId sequence) := by
  unfold World.create
  split
  · rename_i bundle inode hp
    dsimp only
    split
    · refine h.stageStaging hp rfl (stagingBundleId_stagingName bundle processId sequence) ?_ ?_
      · intro n e hn
        obtain ⟨rfl, rfl⟩ := Prod.mk.inj (Option.some.inj hn)
        exact ⟨rfl, rfl⟩
      · exact fun n hn => (Option.some.inj hn).symm
    · exact h.abandon hp
  · exact h

theorem proceedPublishing (h : Invariant w) (hp : w.runs p = .publishing bundle inode s) :
    Invariant (w.proceedPublishing p bundle inode s) := by
  have hf : Fits w p (.publishing bundle inode s) := hp ▸ h.fits p
  have hheld : (w.runs p).holder = some bundle.text := by rw [hp]; rfl
  cases s with
  | checkDestination =>
    simp only [World.proceedPublishing]
    split
    · exact h.idleStage hp id (fun _ => id) fun _ => id
    · exact h.abandon hp
  | reserve =>
    simp only [World.proceedPublishing]
    split
    · exact h.abandon hp
    · refine h.stage hp rfl h.takeReservation rfl rfl ?_ ?_ ?_ h.complete
      · simp [World.setReservation]
      · exact fun _ _ hd => absurd hd (by simp [Stage.directory])
      · exact fun _ hn => absurd hn (by simp [Stage.staging])
  | writeReservation => exact h.idleStage hp id (fun _ => id) fun _ => id
  | recheckDestination =>
    simp only [World.proceedPublishing]
    split
    · exact h.idleStage hp id (fun _ => id) fun _ => id
    · exact h.abandon hp
  | createStaging => exact h
  | openFile name file =>
    have hd : w.staging name = some (Directory.before file) := hf.staged name _ rfl
    simp only [World.proceedPublishing, hd, Directory.before_self, Option.isNone_none, if_true]
    refine h.stageStaging hp rfl (hf.staging_named rfl) ?_ ?_
    · intro n e hn
      obtain ⟨rfl, rfl⟩ := Prod.mk.inj (Option.some.inj hn)
      exact ⟨rfl, rfl⟩
    · exact fun n hn => (Option.some.inj hn).symm
  | writeFile name file =>
    have hd := hf.staged name _ rfl
    simp only [World.proceedPublishing, hd, Function.update_self, Option.isSome_some, if_true,
      Function.update_idem, Directory.update_before]
    refine h.stageStaging hp rfl (hf.staging_named rfl) ?_ ?_
    · intro n e hn
      cases hafter : file.after <;> simp only [hafter] at hn ⊢ <;>
      · obtain ⟨rfl, rfl⟩ := Prod.mk.inj (Option.some.inj hn)
        exact ⟨rfl, rfl⟩
    · intro n hn
      cases hafter : file.after <;> simp only [hafter] at hn <;> exact (Option.some.inj hn).symm
  | syncStaging name =>
    simp only [World.proceedPublishing]
    split
    · exact h.idleStage hp id (fun _ => id) fun _ => id
    · exact h.abandon hp
  | recheckBeforeRename name =>
    simp only [World.proceedPublishing]
    split
    · exact h.idleStage hp id (fun _ => id) fun _ => id
    · exact h.abandon hp
  | rename name =>
    have hd : w.staging name = some Directory.full := hf.staged name _ rfl
    simp only [World.proceedPublishing, hd]
    split
    · have hothers : Undisturbed w p (w.setStaging name none) := by
        refine h.setStaging fun q hq b hb => ?_
        obtain rfl := Option.some.inj ((hf.staging_named rfl).symm.trans hb)
        exact h.others_vacant hheld q hq
      refine h.stage hp rfl (fun q hq => { hothers q hq with }) rfl rfl
        (fun _ => hf.reservation_present rfl) ?_ ?_ ?_
      · exact fun _ _ hd => absurd hd (by simp [Stage.directory])
      · exact fun _ hn => absurd hn (by simp [Stage.staging])
      · intro b d hbd
        by_cases hb : b = bundle.text
        · subst hb
          simp only [World.publish, Function.update_self, Option.some.injEq] at hbd
          subst hbd
          exact fun _ => rfl
        · exact h.complete b d (by simpa [World.publish, World.setStaging, hb] using hbd)
    · exact h.abandon hp
  | syncRoot =>
    exact h.idleStage hp (fun hs => absurd hs (by simp [Stage.reserved])) (fun _ => id) fun _ => id
  | removeStaging name =>
    simp only [World.proceedPublishing]
    split
    · split
      · refine h.stageStaging hp rfl (hf.staging_named rfl) ?_ ?_
        · exact fun _ _ hd => absurd hd (by simp [Stage.directory])
        · exact fun _ hn => absurd hn (by simp [Stage.staging])
      · exact h.abandon hp
    · exact h.abandon hp
  | removeReservation =>
    refine h.stage hp rfl (h.releaseReservation (h.others_vacant hheld)) rfl rfl ?_ ?_ ?_ h.complete
    · exact fun hs => absurd hs (by simp [Stage.reserved])
    · exact fun _ _ hd => absurd hd (by simp [Stage.directory])
    · exact fun _ hn => absurd hn (by simp [Stage.staging])
  | unlock =>
    refine h.move rfl (h.releaseLock (by rw [hp]; rfl)) ?_ ?_ ?_ h.complete
    · constructor <;> intros <;> simp_all [Run.guarded, Run.lock, Run.checked, Run.probing,
        Run.reserves, Run.directory, Run.named]
    · exact fun _ hb => absurd hb (by simp [Run.holder])
    · exact fun _ hb => absurd hb (by simp [Run.vacated])

end Invariant

end Publishing

/-! ## The lease and cleanup -/

/-- The run holds no lock but the guard and owns nothing. -/
def Run.bare : Run → Bool
  | lockLease _ _ | leased _ _ | publishing _ _ _ | probeLock _ _ | probed _ _ => false
  | _ => true

theorem Fits.of_bare {r : Run} (hbare : r.bare = true)
    (hguard : r.guarded = true → w.guard = some p) : Fits w p r := by
  cases r with
  | lockLease | leased | publishing | probeLock | probed => exact absurd hbare (by simp [Run.bare])
  | _ =>
    refine ⟨hguard, ?_, ?_, ?_, ?_, ?_, ?_⟩ <;>
      simp [Run.lock, Run.checked, Run.probing, Run.reserves, Run.directory, Run.named]

theorem Run.holder_of_bare {r : Run} (hbare : r.bare = true) : r.holder = none := by
  cases r with
  | leased | publishing => exact absurd hbare (by simp [Run.bare])
  | _ => rfl

namespace Invariant

theorem moveBare {r : Run} (h : Invariant w) (hruns : w'.runs = w.runs)
    (hothers : Undisturbed w p w') (hbare : r.bare = true)
    (hguard : r.guarded = true → w'.guard = some p)
    (hvacant : ∀ b, r.vacated = some b → ∀ q, q ≠ p → (w.runs q).holder ≠ some b)
    (hcomplete : ∀ b d, w'.published b = some d → d.Complete) : Invariant (w'.move p r) := by
  refine h.move hruns hothers (.of_bare hbare hguard) (fun b hb => ?_) hvacant hcomplete
  rw [Run.holder_of_bare hbare] at hb
  exact absurd hb (by simp)

/-- A run under the guard goes on without writing. -/
theorem moveGuarded {r : Run} (h : Invariant w) (hp : (w.runs p).guarded = true)
    (hbare : r.bare = true) (hnone : r.vacated = none) : Invariant (w.move p r) := by
  refine h.moveBare rfl h.undisturbed_self hbare (fun _ => (h.fits p).guarded hp) ?_ h.complete
  intro b hb
  rw [hnone] at hb
  exact absurd hb (by simp)

/-- A run goes on without the guard. -/
theorem moveIdle {r : Run} (h : Invariant w) (hbare : r.bare = true) (hfree : r.guarded = false) :
    Invariant (w.move p r) := by
  refine h.moveBare rfl h.undisturbed_self hbare ?_ ?_ h.complete
  · intro hg
    rw [hfree] at hg
    exact absurd hg (by simp)
  · intro b hb
    rw [(Run.guarded_of_vacated hb).1] at hfree
    exact absurd hfree (by simp)

theorem enter {r : Run} (h : Invariant w) (hfree : w.guard = none) (hbare : r.bare = true)
    (hnone : r.vacated = none) : Invariant ((w.setGuard (some p)).move p r) := by
  refine h.moveBare rfl (h.takeGuard hfree) hbare (fun _ => rfl) ?_ h.complete
  intro b hb
  rw [hnone] at hb
  exact absurd hb (by simp)

theorem openLease {bundle : BundleId} (h : Invariant w) (hp : w.runs p = .openLease bundle)
    (hfree : w.leaseFile bundle.text = none) :
    Invariant ((w.createLease bundle.text).move p (.statLease bundle w.nextInode)) := by
  have hg : (w.runs p).guarded = true := by rw [hp]; rfl
  refine h.moveBare rfl (h.createLease hg hfree) rfl (fun _ => (h.fits p).guarded hg) ?_ h.complete
  exact fun _ hb => absurd hb (by simp [Run.vacated])

theorem statLease {bundle : BundleId} {inode : ℕ} (h : Invariant w)
    (hp : w.runs p = .statLease bundle inode) (hlinked : w.leaseFile bundle.text = some inode) :
    Invariant (w.move p (.lockLease bundle inode)) := by
  have hg : w.guard = some p := (h.fits p).guarded (by rw [hp]; rfl)
  refine h.move rfl h.undisturbed_self ?_ ?_ ?_ h.complete
  · refine ⟨fun _ => hg, ?_, ?_, ?_, ?_, ?_, ?_⟩
    case refine_2 =>
      intro b i hb
      obtain ⟨rfl, rfl⟩ := Prod.mk.inj (Option.some.inj hb)
      exact hlinked
    all_goals simp [Run.lock, Run.probing, Run.reserves, Run.directory, Run.named]
  · exact fun _ hb => absurd hb (by simp [Run.holder])
  · exact fun _ hb => absurd hb (by simp [Run.vacated])

theorem lockLease {bundle : BundleId} {inode : ℕ} (h : Invariant w)
    (hp : w.runs p = .lockLease bundle inode) (hfree : w.locks inode = none) :
    Invariant ((w.setLock inode (some p)).move p (.leased bundle inode)) := by
  have hf : Fits w p (.lockLease bundle inode) := hp ▸ h.fits p
  refine h.move rfl (h.takeLock hfree) ?_ ?_ ?_ h.complete
  · refine ⟨fun _ => hf.guarded rfl, ?_, hf.linked, ?_, ?_, ?_, ?_⟩
    case refine_1 =>
      intro i hi
      obtain rfl := Option.some.inj hi
      simp [World.setLock]
    all_goals simp [Run.probing, Run.reserves, Run.directory, Run.named]
  · exact fun _ _ => .inr (by rw [hp]; rfl)
  · exact fun _ hb => absurd hb (by simp [Run.vacated])

theorem leased {bundle : BundleId} {inode : ℕ} (h : Invariant w)
    (hp : w.runs p = .leased bundle inode) :
    Invariant ((w.setGuard none).move p (.publishing bundle inode .checkDestination)) := by
  have hf : Fits w p (.leased bundle inode) := hp ▸ h.fits p
  refine h.move rfl (h.releaseGuard (by rw [hp]; rfl)) ?_ ?_ ?_ h.complete
  · refine ⟨?_, hf.locked, hf.linked, ?_, ?_, ?_, ?_⟩ <;>
      simp [Run.guarded, Run.probing, Run.reserves, Run.directory, Run.named, Stage.reserved,
        Stage.directory, Stage.staging]
  · intro b hb
    rw [hp]
    exact .inl hb
  · exact fun _ hb => absurd hb (by simp [Run.vacated])

/-- Cleanup finds no lease file, so the bundle has no publisher. -/
theorem proceedProbe {target : Target} (h : Invariant w) (hp : w.runs p = .probe target) :
    Invariant (w.proceedProbe p target) := by
  have hg : (w.runs p).guarded = true := by rw [hp]; rfl
  have hremove (hnone : ∀ b, target.bundle = some b → w.leaseFile b = none) :
      Invariant (w.move p (.remove target)) := by
    refine h.moveBare rfl h.undisturbed_self rfl (fun _ => (h.fits p).guarded hg) ?_ h.complete
    intro b hb q _ hq
    obtain ⟨i, hchecked, -⟩ := Run.checked_of_holder hq
    have hlinked := (h.fits q).linked b i hchecked
    rw [hnone b hb] at hlinked
    exact absurd hlinked (by simp)
  unfold World.proceedProbe
  split
  · rename_i hbundle
    exact hremove fun b hb => absurd (hbundle.symm.trans hb) (by simp)
  · rename_i b hbundle
    split
    · exact h.moveGuarded hg rfl rfl
    · rename_i hnone
      split
      · exact h.moveGuarded hg rfl rfl
      · refine hremove fun c hc => ?_
        obtain rfl := Option.some.inj (hbundle.symm.trans hc)
        exact hnone

theorem probeStat {target : Target} {inode : ℕ} (h : Invariant w)
    (hp : w.runs p = .probeStat target inode)
    (hlinked : target.bundle.bind w.leaseFile = some inode) :
    Invariant (w.move p (.probeLock target inode)) := by
  have hg : w.guard = some p := (h.fits p).guarded (by rw [hp]; rfl)
  refine h.move rfl h.undisturbed_self ?_ ?_ ?_ h.complete
  · refine ⟨fun _ => hg, ?_, ?_, ?_, ?_, ?_, ?_⟩
    case refine_3 =>
      intro b i hb j hj
      obtain ⟨c, hc, heq⟩ := Option.map_eq_some_iff.mp hb
      obtain ⟨rfl, rfl⟩ := Prod.mk.inj heq
      rw [hc, Option.bind_some, hj] at hlinked
      exact Option.some.inj hlinked
    all_goals simp [Run.lock, Run.checked, Run.reserves, Run.directory, Run.named]
  · exact fun _ hb => absurd hb (by simp [Run.holder])
  · exact fun _ hb => absurd hb (by simp [Run.vacated])

/-- Cleanup takes the lock of the linked inode, so the bundle has no publisher. -/
theorem probeLock {target : Target} {inode : ℕ} (h : Invariant w)
    (hp : w.runs p = .probeLock target inode) (hfree : w.locks inode = none) :
    Invariant ((w.setLock inode (some p)).move p (.probed target inode)) := by
  have hf : Fits w p (.probeLock target inode) := hp ▸ h.fits p
  refine h.move rfl (h.takeLock hfree) ?_ ?_ ?_ h.complete
  · refine ⟨fun _ => hf.guarded rfl, ?_, ?_, hf.probing, ?_, ?_, ?_⟩
    case refine_1 =>
      intro i hi
      obtain rfl := Option.some.inj hi
      simp [World.setLock]
    all_goals simp [Run.checked, Run.reserves, Run.directory, Run.named]
  · exact fun _ hb => absurd hb (by simp [Run.holder])
  · intro b hb q _ hq
    obtain ⟨i, hchecked, hlock⟩ := Run.checked_of_holder hq
    have htarget : (Run.probeLock target inode).probing = some (b, inode) :=
      Option.map_eq_some_iff.mpr ⟨b, hb, rfl⟩
    obtain rfl := hf.probing b inode htarget i ((h.fits q).linked b i hchecked)
    have hheld := (h.fits q).locked i hlock
    rw [hfree] at hheld
    exact absurd hheld (by simp)

theorem probed {target : Target} {inode : ℕ} (h : Invariant w)
    (hp : w.runs p = .probed target inode) :
    Invariant ((w.setLock inode none).move p (.remove target)) := by
  have hf : Fits w p (.probed target inode) := hp ▸ h.fits p
  have hlock : (w.runs p).lock = some inode := by rw [hp]; rfl
  refine h.moveBare rfl (h.releaseLock hlock) rfl (fun _ => hf.guarded rfl) ?_ h.complete
  exact fun b hb q _ => h.vacant p q b (by rw [hp]; exact hb)

theorem remove_vacant {target : Target} (h : Invariant w) (hp : w.runs p = .remove target)
    (q : ℕ) {b : String} (hb : target.bundle = some b) : (w.runs q).holder ≠ some b :=
  h.vacant p q b (by rw [hp]; exact hb)

theorem proceedRemove {target : Target} (h : Invariant w) (hp : w.runs p = .remove target) :
    Invariant (w.proceedRemove p target) := by
  have hg : (w.runs p).guarded = true := by rw [hp]; rfl
  have hcleaning {w' : World} (hruns : w'.runs = w.runs) (hguard : w'.guard = w.guard)
      (hothers : Undisturbed w p w')
      (hcomplete : ∀ b d, w'.published b = some d → d.Complete) :
      Invariant (w'.move p .cleaning) := by
    refine h.moveBare hruns hothers rfl (fun _ => hguard.trans ((h.fits p).guarded hg)) ?_ hcomplete
    exact fun _ hb => absurd hb (by simp [Run.vacated])
  cases target with
  | staging name =>
    simp only [World.proceedRemove]
    split
    · split
      · exact hcleaning rfl rfl (h.setStaging fun q _ b hb => h.remove_vacant hp q hb) h.complete
      · exact h.moveGuarded hg rfl rfl
    · exact h.moveGuarded hg rfl rfl
  | reservation b =>
    exact hcleaning rfl rfl (h.releaseReservation fun q _ => h.remove_vacant hp q rfl) h.complete
  | lease b =>
    refine hcleaning rfl rfl (h.removeLease fun q hne i hi => ?_) h.complete
    rcases Run.guarded_or_holder_of_checked hi with hguard | hholder
    · exact hne (h.guard_unique hguard hg)
    · exact h.remove_vacant hp q rfl hholder

end Invariant

/-! ## Runs -/

namespace Invariant

theorem proceed (h : Invariant w) (hunused : UnlinksUnused w (p, .proceed)) :
    Invariant (w.proceed p) := by
  cases hp : w.runs p with
  | idle =>
    simp only [World.proceed, hp]
    exact h
  | publisherWaits bundle =>
    simp only [World.proceed, hp]
    split
    · rename_i hfree
      exact h.enter hfree rfl rfl
    · exact h
  | openLease bundle =>
    simp only [World.proceed, hp]
    split
    · exact h.moveGuarded (by rw [hp]; rfl) rfl rfl
    · rename_i hfree
      exact h.openLease hp hfree
  | statLease bundle inode =>
    simp only [World.proceed, hp]
    split
    · rename_i hlinked
      exact h.statLease hp hlinked
    · exact h.moveGuarded (by rw [hp]; rfl) rfl rfl
  | lockLease bundle inode =>
    simp only [World.proceed, hp]
    split
    · rename_i hfree
      exact h.lockLease hp hfree
    · exact h.moveGuarded (by rw [hp]; rfl) rfl rfl
  | leased bundle inode =>
    simp only [World.proceed, hp]
    exact h.leased hp
  | publishing bundle inode stage =>
    simp only [World.proceed, hp]
    exact h.proceedPublishing hp
  | unlinkLease bundle =>
    simp only [World.proceed, hp]
    have hothers := h.removeLease (p := p) fun q _ i => hunused rfl bundle hp q i
    refine h.moveBare rfl hothers rfl (fun hg => absurd hg (by simp [Run.guarded])) ?_ h.complete
    exact fun _ hb => absurd hb (by simp [Run.vacated])
  | cleanupWaits =>
    simp only [World.proceed, hp]
    split
    · rename_i hfree
      exact h.enter hfree rfl rfl
    · exact h
  | cleaning =>
    simp only [World.proceed, hp]
    exact h.moveGuarded (by rw [hp]; rfl) rfl rfl
  | probe target =>
    simp only [World.proceed, hp]
    exact h.proceedProbe hp
  | probeStat target inode =>
    simp only [World.proceed, hp]
    split
    · rename_i hlinked
      exact h.probeStat hp hlinked
    · exact h.moveGuarded (by rw [hp]; rfl) rfl rfl
  | probeLock target inode =>
    simp only [World.proceed, hp]
    split
    · rename_i hfree
      exact h.probeLock hp hfree
    · exact h.moveGuarded (by rw [hp]; rfl) rfl rfl
  | probed target inode =>
    simp only [World.proceed, hp]
    exact h.probed hp
  | remove target =>
    simp only [World.proceed, hp]
    exact h.proceedRemove hp
  | dropGuard =>
    simp only [World.proceed, hp]
    refine h.moveBare rfl (h.releaseGuard (by rw [hp]; rfl)) rfl
      (fun hg => absurd hg (by simp [Run.guarded])) ?_ h.complete
    exact fun _ hb => absurd hb (by simp [Run.vacated])

theorem fail (h : Invariant w) : Invariant (w.fail p) := by
  cases hp : w.runs p with
  | idle | leased | probed | dropGuard =>
    simp only [World.fail, hp]
    exact h
  | publisherWaits | unlinkLease | cleanupWaits =>
    simp only [World.fail, hp]
    exact h.moveIdle rfl rfl
  | publishing bundle inode stage =>
    simp only [World.fail, hp]
    exact h.abandon hp
  | openLease | statLease | lockLease | cleaning | probe | probeStat | probeLock | remove =>
    simp only [World.fail, hp]
    exact h.moveGuarded (by rw [hp]; rfl) rfl rfl

/-- A crash releases what the run holds and leaves what it has written. -/
theorem crash (h : Invariant w) : Invariant (w.crash p) := by
  let w' := if (w.runs p).guarded then w.setGuard none else w
  have hruns : w'.runs = w.runs := by
    simp only [w']
    split <;> rfl
  have hothers : Undisturbed w p w' := by
    simp only [w']
    split
    · rename_i hg
      exact h.releaseGuard hg
    · exact h.undisturbed_self
  have hlocks : w'.locks = w.locks := by
    simp only [w']
    split <;> rfl
  have hcomplete : ∀ b d, w'.published b = some d → d.Complete := by
    simp only [w']
    split <;> exact h.complete
  have hidle {w'' : World} (hruns : w''.runs = w.runs) (hothers : Undisturbed w p w'')
      (hcomplete : ∀ b d, w''.published b = some d → d.Complete) :
      Invariant (w''.move p .idle) := by
    refine h.moveBare hruns hothers rfl (fun hg => absurd hg (by simp [Run.guarded])) ?_ hcomplete
    exact fun _ hb => absurd hb (by simp [Run.vacated])
  unfold World.crash
  cases hl : (w.runs p).lock with
  | none => exact hidle hruns hothers hcomplete
  | some inode =>
    change Invariant ((w'.setLock inode none).move p .idle)
    refine hidle hruns (fun q hq => ?_) hcomplete
    have hreleased := (h.releaseLock hl q hq).locked
    refine { hothers q hq with locked := fun i hi => ?_ }
    simpa [World.setLock, hlocks] using hreleased i hi

theorem start (h : Invariant w) (call : Call) : Invariant (w.start p call) := by
  unfold World.start
  split
  · split
    · exact h.moveIdle rfl rfl
    · exact h
  · exact h.moveIdle rfl rfl
  · exact h

theorem pick (h : Invariant w) (target : Target) : Invariant (w.pick p target) := by
  unfold World.pick
  split
  · rename_i hp
    split
    · exact h.moveGuarded (by rw [hp]; rfl) rfl rfl
    · exact h
  · exact h

/-- The removal of a file from a staging directory that no other run is publishing. -/
theorem unlinkFile {name : String} {file : ReportFile} (h : Invariant w)
    (hown : ∀ n d, (w.runs p).directory = some (n, d) → n ≠ name)
    (hvacant : ∀ q, q ≠ p → ∀ b, stagingBundleId name = some b → (w.runs q).holder ≠ some b) :
    Invariant (w.unlinkFile name file) := by
  unfold World.unlinkFile
  split
  · rename_i d _
    refine ⟨fun q => ?_, h.vacant, h.complete⟩
    by_cases hq : q = p
    · subst hq
      refine { h.fits q with staged := fun n e hn => ?_ }
      simpa [World.setStaging, hown n e hn] using (h.fits q).staged n e hn
    · exact { h.setStaging (d := some (Function.update d file none)) hvacant q hq with }
  · exact h

theorem unlink (h : Invariant w) (file : ReportFile) : Invariant (w.unlink p file) := by
  unfold World.unlink
  split
  · rename_i bundle inode name hp
    have hf : Fits w p (.publishing bundle inode (.removeStaging name)) := hp ▸ h.fits p
    refine h.unlinkFile (p := p) ?_ fun q hq b hb => ?_
    · intro n d hd
      rw [hp] at hd
      exact absurd hd (by simp [Run.directory, Stage.directory])
    · obtain rfl := Option.some.inj ((hf.staging_named rfl).symm.trans hb)
      exact h.others_vacant (by rw [hp]; rfl) q hq
  · rename_i name hp
    refine h.unlinkFile (p := p) ?_ fun q _ b hb => h.remove_vacant hp q hb
    intro n d hd
    rw [hp] at hd
    exact absurd hd (by simp [Run.directory])
  · exact h

theorem next (w : World) (event : ℕ × Action) (hunused : UnlinksUnused w event)
    (h : Invariant w) : Invariant (next w event) := by
  obtain ⟨p, action⟩ := event
  cases action with
  | start call => exact h.start call
  | proceed => exact h.proceed hunused
  | fail => exact h.fail
  | crash => exact h.crash
  | create processId sequence => exact h.create processId sequence
  | pick target => exact h.pick target
  | unlink file => exact h.unlink file

theorem ofLeftovers {reservation : String → Bool} {staging published : String → Option Directory}
    (hcomplete : ∀ b d, published b = some d → d.Complete) :
    Invariant (.ofLeftovers reservation staging published) where
  fits _ := .of_bare rfl fun hg => absurd hg (by simp [World.ofLeftovers, Run.guarded])
  vacant _ _ _ hb := absurd hb (by simp [World.ofLeftovers, Run.vacated])
  complete := hcomplete

end Invariant

/-- Publishers and cleanups interleave, fail and crash in any way; where no publisher that has
ended unlinks a lease file that another one has checked, publication stays exclusive, cleanup
removes nothing of a live publisher, and what becomes visible is complete. -/
theorem publication_safe (reservation : String → Bool)
    (staging published : String → Option Directory)
    (hcomplete : ∀ b d, published b = some d → d.Complete) (events : List (ℕ × Action))
    (hunused : StepsMeet next UnlinksUnused (.ofLeftovers reservation staging published) events) :
    StatesMeet next Safe (.ofLeftovers reservation staging published) events := by
  have hstates := StatesMeet.of_stepsMeet Invariant.next (.ofLeftovers hcomplete) hunused
  exact hstates.imp fun _ h => h.safe

namespace World
variable {w : World} {p q : ℕ}

theorem move_runs_of_ne (h : q ≠ p) (w : World) (r : Run) : (w.move p r).runs q = w.runs q := by
  unfold move
  exact Function.update_of_ne h r w.runs

theorem proceedPublishing_runs_of_ne (h : q ≠ p) (w : World) (bundle : BundleId) (inode : ℕ)
    (stage : Stage) : (w.proceedPublishing p bundle inode stage).runs q = w.runs q := by
  unfold proceedPublishing
  cases stage <;> dsimp only <;> (repeat' split) <;>
    first
    | rfl
    | exact move_runs_of_ne h _ _

theorem proceedRemove_runs_of_ne (h : q ≠ p) (w : World) (target : Target) :
    (w.proceedRemove p target).runs q = w.runs q := by
  unfold proceedRemove
  repeat' split
  all_goals exact move_runs_of_ne h _ _

theorem proceedProbe_runs_of_ne (h : q ≠ p) (w : World) (target : Target) :
    (w.proceedProbe p target).runs q = w.runs q := by
  unfold proceedProbe
  repeat' split
  all_goals exact move_runs_of_ne h _ _

theorem proceed_runs_of_ne (h : q ≠ p) (w : World) : (w.proceed p).runs q = w.runs q := by
  unfold proceed
  repeat' split
  all_goals first
    | rfl
    | exact move_runs_of_ne h _ _
    | exact proceedPublishing_runs_of_ne h w _ _ _
    | exact proceedProbe_runs_of_ne h w _
    | exact proceedRemove_runs_of_ne h w _
end World

/-- A step moves its own run only. -/
theorem next_runs_of_ne {event : ℕ × Action} {q : ℕ} (h : q ≠ event.1) (w : World) :
    (next w event).runs q = w.runs q := by
  obtain ⟨p, action⟩ := event
  cases action with
  | proceed => exact World.proceed_runs_of_ne h w
  | start call =>
    simp only [next, World.start]
    repeat' split
    all_goals first | rfl | exact World.move_runs_of_ne h _ _
  | fail =>
    simp only [next, World.fail]
    repeat' split
    all_goals first | rfl | exact World.move_runs_of_ne h _ _
  | crash =>
    simp only [next, World.crash]
    repeat' split
    all_goals exact World.move_runs_of_ne h _ _
  | create processId sequence =>
    simp only [next, World.create]
    repeat' split
    all_goals first | rfl | exact World.move_runs_of_ne h _ _
  | pick target =>
    simp only [next, World.pick]
    repeat' split
    all_goals first | rfl | exact World.move_runs_of_ne h _ _
  | unlink file =>
    simp only [next, World.unlink, World.unlinkFile]
    repeat' split
    all_goals rfl

/-- The condition can be tested where all runs have numbers below `n`. -/
def unlinksUnused (n : ℕ) (w : World) (event : ℕ × Action) : Bool :=
  match event.2, w.runs event.1 with
  | .proceed, .unlinkLease bundle =>
    (List.range n).all fun q => (w.runs q).checked.map Prod.fst ≠ some bundle.text
  | _, _ => true

def allUnlinkUnused (n : ℕ) : World → List (ℕ × Action) → Bool
  | _, [] => true
  | w, event :: events =>
    event.1 < n && unlinksUnused n w event && allUnlinkUnused n (next w event) events

theorem stepsMeet_of_allUnlinkUnused {n : ℕ} {w : World} {events : List (ℕ × Action)}
    (hidle : ∀ q, n ≤ q → w.runs q = .idle) (h : allUnlinkUnused n w events = true) :
    StepsMeet next UnlinksUnused w events := by
  induction events generalizing w with
  | nil => trivial
  | cons event events ih =>
    simp only [allUnlinkUnused, Bool.and_eq_true, decide_eq_true_eq] at h
    obtain ⟨⟨hbelow, hevent⟩, hrest⟩ := h
    refine ⟨fun hproceed bundle hrun q inode hchecked => ?_, ih (fun q hq => ?_) hrest⟩
    · rw [unlinksUnused, hproceed, hrun, List.all_eq_true] at hevent
      rcases Nat.lt_or_ge q n with hlt | hge
      · have hother := hevent q (List.mem_range.mpr hlt)
        simp [hchecked] at hother
      · rw [hidle q hge] at hchecked
        cases hchecked
    · rw [next_runs_of_ne (by omega) w]
      exact hidle q hq

/-- `publish_report_bundle` of a run up to the publication itself, with the lease acquired. -/
def acquisition (p : ℕ) (bundleId : String) : List (ℕ × Action) :=
  (p, .start (.publish bundleId)) :: List.replicate 5 (p, .proceed)

/-- A root with a published bundle and the reservation of a publisher that crashed. -/
def usedRoot : World :=
  .ofLeftovers (fun b => b = "stale") (fun _ => none) fun b => if b = "old" then some .full else none

/-- Publisher 0 publishes a bundle and unlinks its lease file while publisher 1 holds another lease;
then cleanup removes the reservation, and publisher 2 acquires the first lease anew. -/
def publications : List (ℕ × Action) :=
  acquisition 0 "b" ++ List.replicate 4 (0, .proceed) ++ [(0, .create 7 1)] ++
    List.replicate 15 (0, .proceed) ++ acquisition 1 "c" ++ [(0, .proceed)] ++
    [(3, .start .cleanup), (3, .proceed), (3, .pick (.reservation "stale")), (3, .proceed),
      (3, .proceed), (3, .proceed), (3, .proceed)] ++ acquisition 2 "b"

theorem publication_safe_publications :
    StatesMeet next Safe usedRoot publications := by
  refine publication_safe _ _ _ (fun b d h => ?_) _
    (stepsMeet_of_allUnlinkUnused (n := 4) (fun _ _ => rfl) (by decide +kernel))
  obtain ⟨-, hfull⟩ := Option.ite_none_right_eq_some.mp h
  obtain rfl := Option.some.inj hfull
  exact fun _ => rfl

def emptyRoot : World := .ofLeftovers (fun _ => false) (fun _ => none) fun _ => none

/-- A publisher fails and unlocks; before it unlinks the lease file a second one acquires the
lease. -/
def unlinkRace : List (ℕ × Action) :=
  acquisition 0 "b" ++ [(0, .fail), (0, .proceed)] ++ acquisition 1 "b" ++ [(0, .proceed)]

/-- The second publisher works while cleanup finds no lease file and removes a file of it. -/
def cleanupRace : List (ℕ × Action) :=
  List.replicate 4 (1, .proceed) ++ [(1, .create 7 1)] ++ List.replicate 12 (1, .proceed) ++
    [(3, .start .cleanup), (3, .proceed), (3, .pick (.staging (stagingName "b" 7 1))),
      (3, .proceed), (3, .unlink .result), (1, .proceed)]

/-- A third publisher acquires the same lease, by a new lease file; and cleanup removes files of a
live publisher, which then makes an incomplete bundle visible. -/
theorem unlinkRace_unsafe :
    ¬ Safe (run next emptyRoot (unlinkRace ++ acquisition 2 "b")) ∧
      ¬ Safe (run next emptyRoot (unlinkRace ++ cleanupRace)) := by
  constructor
  · intro h
    have h1 : ((run next emptyRoot (unlinkRace ++ acquisition 2 "b")).runs 1).holder = some "b" := by
      decide
    have h2 : ((run next emptyRoot (unlinkRace ++ acquisition 2 "b")).runs 2).holder = some "b" := by
      decide
    exact absurd (h.exclusive 1 2 "b" h1 h2) (by decide)
  · intro h
    have hvisible : ((run next emptyRoot (unlinkRace ++ cleanupRace)).published "b").map
        (fun d => d .result) = some none := by
      decide
    obtain ⟨d, hd, hmissing⟩ := Option.map_eq_some_iff.mp hvisible
    have hcomplete := h.complete "b" d hd .result
    rw [hmissing] at hcomplete
    exact absurd hcomplete (by simp)

end OptoSync.Publication
