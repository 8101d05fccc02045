import OptoSync.PullPage

/-!
# Agreement on pull pages

When the Rust client accepts the same pull pages as the TypeScript client. A well-formed page is
one that both accept up to the forms that only one of them reads.
-/
namespace OptoSync
open Decimal Json

theorem repr_bigInt {value : String} (h : decimalPattern value = true) :
    (bigInt value).repr = value := by
  have hcanonical : Canonical value.toList := by
    unfold decimalPattern at h
    simp only [Bool.or_eq_true, decide_eq_true_eq, Bool.and_eq_true, List.all_eq_true] at h
    rcases h with rfl | ⟨⟨hne, hhead⟩, hdigits⟩
    · exact ⟨by simp, by simp, by simp⟩
    · exact ⟨hne, hdigits, fun h0 => absurd h0 hhead⟩
  apply String.toList_inj.mp
  rw [toList_repr]
  exact toDigits_ofDigitChars hcanonical

/-- The parser of the Rust client accepts the decimals of 64 bits. -/
theorem parseDecimal_iff {value : String} {n : ℕ} :
    parseDecimal value = some n ↔ decimalPattern value = true ∧ bigInt value = n ∧ n ≤ maxU64 := by
  rw [parseDecimal_eq_some]
  constructor
  · rintro ⟨hle, rfl⟩
    exact ⟨OptoSyncClient.decimalPattern_repr n, OptoSyncClient.bigInt_repr n, hle⟩
  · rintro ⟨hpattern, rfl, hle⟩
    exact ⟨hle, (repr_bigInt hpattern).symm⟩

theorem bigInt_ne_zero {value : String} (h : positiveDecimalPattern value = true) :
    bigInt value ≠ 0 := by
  unfold positiveDecimalPattern at h
  simp only [Bool.and_eq_true, decide_eq_true_eq] at h
  obtain ⟨hpattern, hne⟩ := h
  intro hzero
  apply hne
  rw [← repr_bigInt hpattern, hzero]
  rfl

theorem positiveDecimalPattern_of_pos {value : String} (h : decimalPattern value = true)
    (hpos : 0 < bigInt value) : positiveDecimalPattern value = true := by
  unfold positiveDecimalPattern
  simp only [h, Bool.true_and, decide_eq_true_eq]
  rintro rfl
  exact absurd hpos (by decide)

theorem positive_iff {value : String} : (parseDecimal value).all (· = 0) = false ↔
    positiveDecimalPattern value = true ∧ bigInt value ≤ maxU64 := by
  constructor
  · intro h
    cases hparse : parseDecimal value with
    | none => simp [hparse] at h
    | some n =>
      obtain ⟨hpattern, rfl, hle⟩ := parseDecimal_iff.mp hparse
      have hne : bigInt value ≠ 0 := by simpa [hparse] using h
      exact ⟨positiveDecimalPattern_of_pos hpattern (Nat.pos_of_ne_zero hne), hle⟩
  · rintro ⟨hpositive, hle⟩
    have hpattern : decimalPattern value = true := by
      unfold positiveDecimalPattern at hpositive
      exact (Bool.and_eq_true _ _ ▸ hpositive).1
    have hparse := parseDecimal_iff.mpr ⟨hpattern, rfl, hle⟩
    simpa [hparse] using bigInt_ne_zero hpositive

/-- What both clients ask of a change. -/
structure Change.WellFormed (pageCheckpoint last : ℕ) (change : Change) : Prop where
  checkpoint : decimalPattern change.checkpoint = true
  above : last < bigInt change.checkpoint
  within : bigInt change.checkpoint ≤ pageCheckpoint
  table : change.table ≠ ""
  recordId : change.recordId ≠ ""
  revision : positiveDecimalPattern change.revision = true
  content : changeContentRefused change = false
  source : ∀ source ∈ change.source,
    source.clientId ≠ "" ∧ positiveDecimalPattern source.mutationId = true

/-- The other numbers of a change are numbers of 64 bits. -/
def Change.Fits (change : Change) : Prop :=
  bigInt change.revision ≤ maxU64 ∧ ∀ source ∈ change.source, bigInt source.mutationId ≤ maxU64

/-- The form of a change that TypeScript reads: objects, the operation as a string, a null for the
record of a delete, and no null for a missing source. -/
structure ReadInPlace (entry : Json) : Prop where
  object : entry.isObject = true
  operation : ∃ name, SyncLoop.property entry "operation" = some (.string name)
  record : (SyncLoop.property entry "record").isSome = true
  source : ∀ source ∈ SyncLoop.property entry "source", source.isObject = true

/-- The changes of a page after the checkpoint `last`. -/
def WellFormedChanges (pageCheckpoint : ℕ) : ℕ → List Change → Prop
  | _, [] => True
  | last, change :: changes => change.WellFormed pageCheckpoint last ∧
      WellFormedChanges pageCheckpoint (bigInt change.checkpoint) changes

theorem validateChange_iff {pageCheckpoint last next : ℕ} {change : Change}
    (hpage : pageCheckpoint ≤ maxU64) :
    validateChange pageCheckpoint last change = .ok next ↔
      change.WellFormed pageCheckpoint last ∧ change.Fits ∧ next = bigInt change.checkpoint := by
  unfold validateChange
  constructor
  · intro h
    cases hparse : parseDecimal change.checkpoint with
    | none => simp [hparse] at h
    | some checkpoint =>
      obtain ⟨hpattern, rfl, hle⟩ := parseDecimal_iff.mp hparse
      simp only [hparse] at h
      split at h
      · cases h
      · rename_i hgood
        simp only [not_or, Bool.not_eq_true, not_le, not_lt, String.toList_eq_nil_iff] at hgood
        obtain ⟨habove, hwithin, htable, hrecord, hrevision, hcontent, hsource⟩ := hgood
        have hsources : ∀ source ∈ change.source, source.clientId ≠ "" ∧
            positiveDecimalPattern source.mutationId = true ∧ bigInt source.mutationId ≤ maxU64 := by
          intro source hmem
          rw [Option.mem_def.mp hmem] at hsource
          simp only [Option.any_some, Bool.or_eq_false_iff, decide_eq_false_iff_not] at hsource
          exact ⟨hsource.1, positive_iff.mp hsource.2⟩
        obtain ⟨hpositive, hfits⟩ := positive_iff.mp hrevision
        exact ⟨⟨hpattern, habove, hwithin, htable, hrecord, hpositive, hcontent,
            fun source hmem => ⟨(hsources source hmem).1, (hsources source hmem).2.1⟩⟩,
          ⟨hfits, fun source hmem => (hsources source hmem).2.2⟩, (Except.ok.inj h).symm⟩
  · rintro ⟨hwf, ⟨hrevision, hsources⟩, rfl⟩
    have hparse := parseDecimal_iff.mpr ⟨hwf.checkpoint, rfl, hwf.within.trans hpage⟩
    have hsource : change.source.any (fun source => source.clientId = "" ||
        (parseDecimal source.mutationId).all (· = 0)) = false := by
      cases hs : change.source with
      | none => rfl
      | some source =>
        obtain ⟨hclient, hmutation⟩ := hwf.source source hs
        simp [hclient, positive_iff.mpr ⟨hmutation, hsources source hs⟩]
    simp only [hparse]
    rw [if_neg]
    simp [hwf.above, hwf.within, hwf.table, hwf.recordId, hwf.content, hsource,
      positive_iff.mpr ⟨hwf.revision, hrevision⟩]

theorem foldlM_validateChange_iff {pageCheckpoint last : ℕ} {changes : List Change}
    (hpage : pageCheckpoint ≤ maxU64) :
    (∃ next, changes.foldlM (validateChange pageCheckpoint) last = .ok next) ↔
      WellFormedChanges pageCheckpoint last changes ∧ ∀ change ∈ changes, change.Fits := by
  induction changes generalizing last with
  | nil => exact ⟨fun _ => ⟨trivial, by simp⟩, fun _ => ⟨last, rfl⟩⟩
  | cons change changes ih =>
    rw [List.foldlM_cons]
    constructor
    · rintro ⟨next, h⟩
      cases hstep : validateChange pageCheckpoint last change with
      | error message =>
        rw [hstep] at h
        cases h
      | ok mid =>
        rw [hstep] at h
        obtain ⟨hwf, hfits, rfl⟩ := (validateChange_iff hpage).mp hstep
        obtain ⟨hchanges, hall⟩ := ih.mp ⟨next, h⟩
        exact ⟨⟨hwf, hchanges⟩, List.forall_mem_cons.mpr ⟨hfits, hall⟩⟩
    · rintro ⟨⟨hwf, hchanges⟩, hall⟩
      obtain ⟨hfits, hall⟩ := List.forall_mem_cons.mp hall
      obtain ⟨next, h⟩ := ih.mpr ⟨hchanges, hall⟩
      refine ⟨next, ?_⟩
      rw [(validateChange_iff hpage).mpr ⟨hwf, hfits, rfl⟩]
      exact h

theorem validatePullPage_iff {page : PullResponse} {prior : String}
    (hprior : decimalPattern prior = true) :
    validatePullPage page prior = .ok () ↔
      page.protocolVersion = 1 ∧ decimalPattern page.checkpoint = true ∧
        bigInt page.checkpoint ≤ maxU64 ∧ bigInt prior ≤ bigInt page.checkpoint ∧
        WellFormedChanges (bigInt page.checkpoint) (bigInt prior) page.changes ∧
        ∀ change ∈ page.changes, change.Fits := by
  unfold validatePullPage
  constructor
  · intro h
    cases hparse : parseDecimal page.checkpoint with
    | none => simp [hparse] at h
    | some pageCheckpoint =>
      cases hparsePrior : parseDecimal prior with
      | none => simp [hparse, hparsePrior] at h
      | some last =>
        obtain ⟨hpattern, rfl, hle⟩ := parseDecimal_iff.mp hparse
        obtain ⟨-, rfl, -⟩ := parseDecimal_iff.mp hparsePrior
        simp only [hparse, hparsePrior] at h
        split at h
        · cases h
        · rename_i hgood
          simp only [not_or, not_not, not_lt, ne_eq] at hgood
          split at h
          · cases h
          · rename_i next hchanges
            obtain ⟨hwf, hfits⟩ := (foldlM_validateChange_iff hle).mp ⟨next, hchanges⟩
            exact ⟨hgood.1, hpattern, hle, hgood.2, hwf, hfits⟩
  · rintro ⟨hversion, hpattern, hle, hadvances, hwf, hfits⟩
    obtain ⟨next, hchanges⟩ := (foldlM_validateChange_iff hle).mpr ⟨hwf, hfits⟩
    simp only [parseDecimal_iff.mpr ⟨hpattern, rfl, hle⟩,
      parseDecimal_iff.mpr ⟨hprior, rfl, hadvances.trans hle⟩, hchanges]
    rw [if_neg]
    simp [hversion, hadvances]

namespace SyncLoop

theorem nonEmptyString_iff {value : Option Json} :
    nonEmptyString value = true ↔ ∃ text, value = some (.string text) ∧ text ≠ "" := by
  unfold nonEmptyString
  split
  · simp
  · rename_i hother
    simp only [Bool.false_eq_true, false_iff, not_exists, not_and]
    intro text h
    exact absurd h (hother text)

theorem positiveDecimalString_iff {value : Option Json} :
    positiveDecimalString value = true ↔
      ∃ text, value = some (.string text) ∧ positiveDecimalPattern text = true := by
  unfold positiveDecimalString
  split
  · simp
  · rename_i hother
    simp only [Bool.false_eq_true, false_iff, not_exists, not_and]
    intro text h
    exact absurd h (hother text)

theorem sourceRefused_iff {source : Option Json} :
    sourceRefused source = false ↔ (∀ value ∈ source, value.isObject = true) ∧
      ∃ decoded, asOption ChangeSource.fromValue source = some decoded ∧ ∀ source ∈ decoded,
        source.clientId ≠ "" ∧ positiveDecimalPattern source.mutationId = true := by
  cases source with
  | none => simp [sourceRefused, asOption]
  | some value =>
    cases value with
    | object fields =>
      have hread : asOption ChangeSource.fromValue (some (.object fields)) =
          (ChangeSource.fromValue (.object fields)).map some := rfl
      simp only [sourceRefused, hread, Option.map_eq_some_iff]
      constructor
      · intro h
        simp only [Bool.or_eq_false_iff, Bool.not_eq_false, decide_eq_false_iff_not] at h
        obtain ⟨⟨hobject, hclient⟩, hmutation⟩ := h
        obtain ⟨clientId, hclient, hne⟩ := nonEmptyString_iff.mp hclient
        obtain ⟨mutationId, hmutation, hpositive⟩ := positiveDecimalString_iff.mp hmutation
        refine ⟨by simp [isObject], some { clientId, mutationId }, ⟨_, ?_, rfl⟩, ?_⟩
        · exact ChangeSource.fromValue_eq_some.mpr ⟨fields, rfl, hclient, hmutation⟩
        · intro source hsource
          cases hsource
          exact ⟨hne, hpositive⟩
      · rintro ⟨-, _, ⟨source, hsource, rfl⟩, hgood⟩
        obtain ⟨hclient, hmutation⟩ := hgood source rfl
        obtain ⟨fields', hfields, hclientId, hmutationId⟩ := ChangeSource.fromValue_eq_some.mp hsource
        cases hfields
        have hclient' := nonEmptyString_iff.mpr ⟨_, hclientId, hclient⟩
        have hmutation' := positiveDecimalString_iff.mpr ⟨_, hmutationId, hmutation⟩
        simp only [property, hclient', hmutation', isObject]
        rfl
    | null => simp [sourceRefused, isObject]
    | bool b => simp [sourceRefused, isObject]
    | number n => simp [sourceRefused, isObject]
    | string s => simp [sourceRefused, isObject]
    | array items => simp [sourceRefused, isObject]

theorem asOption_some (value : Option Json) :
    asOption some value = some (value.filter (· ≠ .null)) := by
  cases value with
  | none => rfl
  | some v => cases v <;> rfl

theorem read_string {name : String} {operation : Operation} :
    Operation.read (.string name) = some operation ↔ name = operation.wireName := by
  constructor
  · intro h
    unfold Operation.read asVariant at h
    split at h
    · rename_i hname
      cases h
      exact Option.some.inj hname
    · rename_i hname
      cases h
      exact Option.some.inj hname
    · cases h
  · rintro rfl
    exact Operation.read_wireName operation

/-- The record must be there, and it must fit the operation. -/
theorem recordRefused_iff {entry : Json} {change : Change}
    (hoperation : property entry "operation" = some (.string change.operation.wireName))
    (hrecord : asOption some (property entry "record") = some change.record) :
    recordRefused entry = false ↔
      (property entry "record").isSome = true ∧ changeContentRefused change = false := by
  unfold recordRefused changeContentRefused
  rw [asOption_some, Option.some.injEq] at hrecord
  rw [hoperation, ← hrecord]
  cases change.operation with
  | upsert =>
    rw [if_pos (by rfl)]
    cases property entry "record" with
    | none => simp
    | some value =>
      by_cases hnull : value = .null
      · simp [hnull, isObject]
      · simp [Option.filter_some, hnull]
  | delete =>
    rw [if_neg (by decide)]
    cases property entry "record" with
    | none => simp
    | some value =>
      by_cases hnull : value = .null
      · simp [hnull]
      · simp [Option.filter_some, hnull]

theorem validateEntry_iff {pageCheckpoint last next : ℕ} {entry : Json} :
    validateEntry pageCheckpoint last entry = .ok next ↔ ReadInPlace entry ∧
      ∃ change, Change.fromValue entry = some change ∧
        change.WellFormed pageCheckpoint last ∧ next = bigInt change.checkpoint := by
  constructor
  · intro h
    unfold validateEntry at h
    split at h
    · rename_i checkpoint hcheckpoint
      split at h
      · cases h
      · rename_i hgood
        simp only [not_or, not_and_or, Bool.not_eq_true, Bool.not_eq_false, not_le, not_lt, not_not,
          ne_eq] at hgood
        obtain ⟨hobject, hpositive, habove, hwithin, htable, hrecordId, hoperation, hrecord,
          hrevision, hsource⟩ := hgood
        obtain ⟨table, htable, htable'⟩ := nonEmptyString_iff.mp htable
        obtain ⟨recordId, hrecordId, hrecordId'⟩ := nonEmptyString_iff.mp hrecordId
        obtain ⟨revision, hrevision, hrevision'⟩ := positiveDecimalString_iff.mp hrevision
        obtain ⟨hobjects, source, hdecoded, hsource'⟩ := sourceRefused_iff.mp hsource
        obtain ⟨record, hread⟩ : ∃ record, asOption some (property entry "record") = some record :=
          ⟨_, asOption_some _⟩
        obtain ⟨operation, hoperation⟩ : ∃ operation : Operation,
            property entry "operation" = some (.string operation.wireName) := by
          rcases hoperation with hupsert | hdelete
          · exact ⟨.upsert, hupsert⟩
          · exact ⟨.delete, hdelete⟩
        have hpattern : decimalPattern checkpoint = true := by
          unfold positiveDecimalPattern at hpositive
          exact (Bool.and_eq_true _ _ ▸ hpositive).1
        cases entry with
        | object fields =>
          let change : Change :=
            { checkpoint, table, recordId, operation, record, revision, source }
          have hcontent : (property (.object fields) "record").isSome = true ∧
              changeContentRefused change = false :=
            (recordRefused_iff hoperation hread).mp hrecord
          refine ⟨⟨rfl, ⟨_, hoperation⟩, hcontent.1, hobjects⟩, change, ?_, ?_,
            (Except.ok.inj h).symm⟩
          · exact Change.fromValue_eq_some.mpr ⟨fields, rfl, hcheckpoint, htable, hrecordId,
              ⟨_, hoperation, Operation.read_wireName operation⟩, hread, hrevision, hdecoded⟩
          · exact ⟨hpattern, habove, hwithin, htable', hrecordId', hrevision', hcontent.2, hsource'⟩
        | _ => cases hobject
    · cases h
  · rintro ⟨⟨hobject, ⟨name, hname⟩, hpresent, hobjects⟩, change, hdecoded, hwf, rfl⟩
    cases entry with
    | object fields =>
      obtain ⟨fields', hfields, hcheckpoint, htable, hrecordId, ⟨operation, hoperation, hread⟩,
        hrecord, hrevision, hsource⟩ := Change.fromValue_eq_some.mp hdecoded
      cases hfields
      cases Option.some.inj (hoperation.symm.trans hname)
      rw [read_string.mp hread] at hname
      have hcontent := (recordRefused_iff hname hrecord).mpr ⟨hpresent, hwf.content⟩
      have hsource' := sourceRefused_iff.mpr ⟨hobjects, change.source, hsource, hwf.source⟩
      have hpositive := positiveDecimalPattern_of_pos hwf.checkpoint (by have := hwf.above; omega)
      have htable' := nonEmptyString_iff.mpr ⟨_, htable, hwf.table⟩
      have hrecordId' := nonEmptyString_iff.mpr ⟨_, hrecordId, hwf.recordId⟩
      have hrevision' := positiveDecimalString_iff.mpr ⟨_, hrevision, hwf.revision⟩
      have hoperations : property (.object fields) "operation" = some (.string "upsert") ∨
          property (.object fields) "operation" = some (.string "delete") := by
        rw [hname]
        cases change.operation with
        | upsert => exact .inl rfl
        | delete => exact .inr rfl
      unfold validateEntry
      rw [show property (.object fields) "checkpoint" = some (.string change.checkpoint) from
        hcheckpoint]
      simp only [property] at htable' hrecordId' hrevision' hsource' hoperations ⊢
      refine if_neg ?_
      simp only [not_or, not_and_or, not_le, not_lt, not_not, ne_eq, htable', hrecordId',
        hrevision', hcontent, hsource', hpositive, isObject]
      simp only [Bool.true_eq_false, Bool.false_eq_true, not_false_eq_true, true_and, and_true]
      exact ⟨hwf.above, hwf.within, hoperations⟩
    | _ => cases hobject

theorem foldlM_validateEntry_iff {pageCheckpoint last : ℕ} {entries : List Json} :
    (∃ next, entries.foldlM (validateEntry pageCheckpoint) last = .ok next) ↔
      (∀ entry ∈ entries, ReadInPlace entry) ∧
        ∃ changes, entries.mapM Change.fromValue = some changes ∧
          WellFormedChanges pageCheckpoint last changes := by
  induction entries generalizing last with
  | nil => exact ⟨fun _ => ⟨by simp, [], rfl, trivial⟩, fun _ => ⟨last, rfl⟩⟩
  | cons entry entries ih =>
    rw [List.foldlM_cons, List.mapM_cons]
    constructor
    · rintro ⟨next, h⟩
      cases hstep : validateEntry pageCheckpoint last entry with
      | error message =>
        rw [hstep] at h
        cases h
      | ok mid =>
        rw [hstep] at h
        obtain ⟨hread, change, hchange, hwf, rfl⟩ := validateEntry_iff.mp hstep
        obtain ⟨hall, changes, hchanges, hwfs⟩ := ih.mp ⟨next, h⟩
        refine ⟨List.forall_mem_cons.mpr ⟨hread, hall⟩, change :: changes, ?_, hwf, hwfs⟩
        rw [hchange, hchanges]
        rfl
    · rintro ⟨hall, changes, hmap, hwfs⟩
      obtain ⟨hread, hall⟩ := List.forall_mem_cons.mp hall
      simp only [bind, Option.bind_eq_some_iff, pure, Option.some.injEq] at hmap
      obtain ⟨change, hchange, rest, hrest, rfl⟩ := hmap
      obtain ⟨next, h⟩ := ih.mpr ⟨hall, rest, hrest, hwfs.2⟩
      refine ⟨next, ?_⟩
      rw [validateEntry_iff.mpr ⟨hread, change, hchange, hwfs.1, rfl⟩]
      exact h

variable (numbers : NumberConversion)

/-- The fields of a page that is an object, or an array of the length of one. -/
def pageFields (page : Json) : List (String × Json) := (page.asFields PullResponse.fields).getD []

def pageCheckpoint (page : Json) : Json := (member (pageFields page) "checkpoint").getD .null

def entries (page : Json) : List Json := ((member (pageFields page) "changes").bind asArray).getD []

/-- What both clients ask of a page. -/
structure WellFormedPage (page : Json) (priorCheckpoint : String) : Prop where
  fields : (page.asFields PullResponse.fields).isSome = true
  protocolVersion : ∃ version, member (pageFields page) "protocolVersion" = some (.number version) ∧
    numbers.text version = "1"
  checkpoint : decimalPattern (toText numbers (pageCheckpoint page)) = true
  advances : bigInt priorCheckpoint ≤ toBigInt numbers (pageCheckpoint page)
  hasMore : ∃ hasMore, member (pageFields page) "hasMore" = some (.bool hasMore)
  array : (member (pageFields page) "changes").bind asArray = some (entries page)
  changes : ∃ changes, (entries page).mapM Change.fromValue = some changes ∧
    WellFormedChanges (toBigInt numbers (pageCheckpoint page)) (bigInt priorCheckpoint) changes

/-- A form that only the Rust client reads: an array in the place of the page, of a change or of a
source, an operation as a key, a delete without a record, or a null source. -/
def RustForm (page : Json) : Prop :=
  page.isObject = false ∨ ∃ entry ∈ entries page, ¬ ReadInPlace entry

/-- A form that only the TypeScript client reads: another number that is one, a checkpoint that
is not a string, or a number of more than 64 bits. -/
def TypeScriptForm (page : Json) : Prop :=
  member (pageFields page) "protocolVersion" ≠ some (.number (.int 1)) ∨
    (∀ text, pageCheckpoint page ≠ .string text) ∨
    maxU64 < toBigInt numbers (pageCheckpoint page) ∨
    ∃ entry ∈ entries page, ∃ change, Change.fromValue entry = some change ∧ ¬ change.Fits

theorem fits_of_mapM {items : List Json} {changes : List Change}
    (h : items.mapM Change.fromValue = some changes) : (∀ change ∈ changes, change.Fits) ↔
      ¬ ∃ entry ∈ items, ∃ change, Change.fromValue entry = some change ∧ ¬ change.Fits := by
  induction items generalizing changes with
  | nil =>
    cases h
    simp
  | cons item items ih =>
    rw [List.mapM_cons] at h
    simp only [bind, Option.bind_eq_some_iff, pure, Option.some.injEq] at h
    obtain ⟨change, hchange, rest, hrest, rfl⟩ := h
    rw [List.forall_mem_cons, ih hrest]
    simp [hchange]

theorem asU8_eq_one {version : Json} : version.asU8 = some 1 ↔ version = .number (.int 1) := by
  constructor
  · intro h
    unfold asU8 at h
    split at h
    · split at h
      · rename_i value hbounds
        rw [Option.some.injEq] at h
        rw [show value = 1 by omega]
      · cases h
    · cases h
  · rintro rfl
    rfl

/-- The Rust client refuses a well-formed page only for a form that TypeScript alone reads. -/
theorem accepted_iff {page : Json} {prior : String} (hprior : decimalPattern prior = true) :
    PullResponse.Accepted page prior ↔
      WellFormedPage numbers page prior ∧ ¬ TypeScriptForm numbers page := by
  constructor
  · rintro ⟨response, hdecode, hok⟩
    obtain ⟨fields, hfields, ⟨version, hversion, hu8⟩, hcheckpoint, hmore, items, hitems, hmap⟩ :=
      PullResponse.fromValue_eq_some.mp hdecode
    obtain ⟨hone, hpattern, hle, hadvances, hwf, hfits⟩ := (validatePullPage_iff hprior).mp hok
    rw [hone] at hu8
    rw [asU8_eq_one.mp hu8] at hversion
    have hpage : pageFields page = fields := by rw [pageFields, hfields, Option.getD_some]
    have hvalue : pageCheckpoint page = .string response.checkpoint := by
      rw [pageCheckpoint, hpage, hcheckpoint, Option.getD_some]
    have harray : (member (pageFields page) "changes").bind asArray = some items := by
      rw [hpage, hitems]
      rfl
    have hentries : entries page = items := by rw [entries, harray, Option.getD_some]
    refine ⟨⟨by rw [hfields]; rfl, ⟨.int 1, by rw [hpage, hversion], numbers.one⟩, ?_, ?_,
      ⟨response.hasMore, by rw [hpage, hmore]⟩, by rw [harray, hentries], response.changes, ?_, ?_⟩, ?_⟩
    · rw [hvalue]
      exact hpattern
    · rw [hvalue]
      exact hadvances
    · rw [hentries]
      exact hmap
    · rw [hvalue]
      exact hwf
    · rintro (hother | hother | hlarge | hunfit)
      · exact hother (by rw [hpage, hversion])
      · exact hother _ hvalue
      · rw [hvalue] at hlarge
        exact absurd hle (not_le.mpr hlarge)
      · rw [hentries] at hunfit
        exact (fits_of_mapM hmap).mp hfits hunfit
  · rintro ⟨hwf, hform⟩
    simp only [TypeScriptForm, not_or, not_not, not_forall, ne_eq, not_lt] at hform
    obtain ⟨hversion, ⟨text, hvalue⟩, hle, hfits⟩ := hform
    obtain ⟨fields, hfields⟩ := Option.isSome_iff_exists.mp hwf.fields
    have hpage : pageFields page = fields := by rw [pageFields, hfields, Option.getD_some]
    obtain ⟨hasMore, hmore⟩ := hwf.hasMore
    obtain ⟨changes, hmap, hchanges⟩ := hwf.changes
    have hpattern := hwf.checkpoint
    have hadvances := hwf.advances
    rw [hvalue] at hpattern hadvances hchanges hle
    have hcheckpoint : member fields "checkpoint" = some (.string text) := by
      rw [pageCheckpoint, hpage] at hvalue
      cases hmember : member fields "checkpoint" with
      | none =>
        rw [hmember] at hvalue
        cases hvalue
      | some value =>
        rw [hmember] at hvalue
        exact congrArg some hvalue
    obtain ⟨value, hitems, harray⟩ := Option.bind_eq_some_iff.mp hwf.array
    rw [asArray_eq_some.mp harray, hpage] at hitems
    refine ⟨{ protocolVersion := 1, checkpoint := text, hasMore, changes }, ?_, ?_⟩
    · exact PullResponse.fromValue_eq_some.mpr ⟨fields, hfields, ⟨_, hpage ▸ hversion, rfl⟩,
        hcheckpoint, hpage ▸ hmore, _, hitems, hmap⟩
    · exact (validatePullPage_iff hprior).mpr
        ⟨rfl, hpattern, hle, hadvances, hchanges, (fits_of_mapM hmap).mpr hfits⟩

/-- The TypeScript client refuses a well-formed page only for a form that Rust alone reads. -/
theorem validatePullPage_eq_ok_iff {page : Json} {prior : String} :
    validatePullPage numbers page prior = .ok () ↔
      WellFormedPage numbers page prior ∧ ¬ RustForm page := by
  constructor
  · intro h
    unfold validatePullPage at h
    split at h
    · rename_i version checkpoint hasMore items hversion hcheckpoint hmore hitems
      split at h
      · cases h
      · rename_i hgood
        simp only [not_or, not_not, not_lt, ne_eq, Bool.not_eq_false] at hgood
        obtain ⟨hone, hpattern, hadvances⟩ := hgood
        split at h
        · cases h
        · rename_i next hchanges
          obtain ⟨hread, changes, hmap, hwf⟩ := foldlM_validateEntry_iff.mp ⟨next, hchanges⟩
          cases page with
          | object fields =>
            have hvalue : pageCheckpoint (.object fields) = checkpoint := by
              rw [pageCheckpoint]
              exact congrArg (·.getD .null) hcheckpoint
            have harray : (member fields "changes").bind asArray = some items :=
              Option.bind_eq_some_iff.mpr ⟨_, hitems, rfl⟩
            have hentries : entries (.object fields) = items := congrArg (·.getD []) harray
            refine ⟨⟨rfl, ⟨version, hversion, hone⟩, hvalue ▸ hpattern, hvalue ▸ hadvances,
              ⟨hasMore, hmore⟩, hentries ▸ harray, changes, hentries ▸ hmap, hvalue ▸ hwf⟩, ?_⟩
            rintro (hobject | ⟨entry, hmem, hnot⟩)
            · cases hobject
            · exact hnot (hread entry (hentries ▸ hmem))
          | _ => cases hversion
    · cases h
  · rintro ⟨hwf, hform⟩
    simp only [RustForm, not_or, not_exists, not_and, not_not, Bool.not_eq_false] at hform
    obtain ⟨hobject, hread⟩ := hform
    cases page with
    | object fields =>
      obtain ⟨version, hversion, hone⟩ := hwf.protocolVersion
      obtain ⟨hasMore, hmore⟩ := hwf.hasMore
      obtain ⟨changes, hmap, hchanges⟩ := hwf.changes
      obtain ⟨value, hitems, harray⟩ := Option.bind_eq_some_iff.mp hwf.array
      rw [asArray_eq_some.mp harray] at hitems
      obtain ⟨next, hfold⟩ := foldlM_validateEntry_iff.mpr ⟨hread, changes, hmap, hchanges⟩
      have hcheckpoint : member fields "checkpoint" = some (pageCheckpoint (.object fields)) := by
        cases hmember : member fields "checkpoint" with
        | none =>
          have hnull : pageCheckpoint (.object fields) = .null := congrArg (·.getD .null) hmember
          have hpattern := hwf.checkpoint
          rw [hnull] at hpattern
          rw [toText, show decimalPattern "null" = false by decide] at hpattern
          cases hpattern
        | some value => exact congrArg some (congrArg (·.getD .null) hmember).symm
      have hproperty : ∀ name, property (.object fields) name = member fields name := fun _ => rfl
      have hversion' : member fields "protocolVersion" = some (.number version) := hversion
      have hmore' : member fields "hasMore" = some (.bool hasMore) := hmore
      have hitems' : member fields "changes" = some (.array (entries (.object fields))) := hitems
      unfold validatePullPage
      simp only [hproperty, hversion', hcheckpoint, hmore', hitems', hfold]
      rw [if_neg]
      simp [hone, hwf.checkpoint, hwf.advances]
    | _ => cases hobject

/-- The two clients agree on a page exactly if, when it is well formed, it uses forms that only
one of them reads for both of them or for neither. -/
theorem accepted_agree_iff (page : Json) {prior : String} (hprior : decimalPattern prior = true) :
    (PullResponse.Accepted page prior ↔ validatePullPage numbers page prior = .ok ()) ↔
      (WellFormedPage numbers page prior → (TypeScriptForm numbers page ↔ RustForm page)) := by
  rw [accepted_iff numbers hprior, validatePullPage_eq_ok_iff, and_congr_right_iff]
  exact imp_congr_right fun _ => not_iff_not

/-- The conversion of integers that a double holds. -/
def smallNumbers : NumberConversion where
  text
    | .int value => value.repr
    | .float literal => if literal = "1.0" then "1" else literal
  bigInt
    | .int value => value.toNat
    | .float _ => 1
  one := by decide

/-- A page with one delete, which leaves out the record. -/
def deletePage : Json :=
  .object [("protocolVersion", .number (.int 1)), ("checkpoint", .string "1"),
    ("hasMore", .bool false), ("changes", .array [.object [("checkpoint", .string "1"),
      ("table", .string "todos"), ("recordId", .string "a"), ("operation", .string "delete"),
      ("revision", .string "1")]])]

theorem accepted_agree_iff_delete :
    (PullResponse.Accepted deletePage "0" ↔ validatePullPage smallNumbers deletePage "0" = .ok ()) ↔
      (WellFormedPage smallNumbers deletePage "0" →
        (TypeScriptForm smallNumbers deletePage ↔ RustForm deletePage)) :=
  accepted_agree_iff smallNumbers deletePage (by decide)

theorem delete_without_record :
    PullResponse.Accepted deletePage "0" ∧
      validatePullPage smallNumbers deletePage "0" = .error "invalid protocol pull change" := by
  refine ⟨⟨{ protocolVersion := 1, checkpoint := "1", hasMore := false, changes := [
    { checkpoint := "1", table := "todos", recordId := "a", operation := .delete, record := none
      revision := "1", source := none }] }, by decide, by decide⟩, by decide⟩

end SyncLoop
end OptoSync
