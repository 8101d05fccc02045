import OptoSync.ClientClock
import OptoSync.HlcOrder
import OptoSync.IngestClock
import OptoSync.TextOrder

/-!
# Timestamps across the clients

The Rust client splits a timestamp by hand and orders timestamps by their bytes. The TypeScript and
the Dart client match one regular expression on code units, and order by these.
-/
namespace OptoSync.HlcAgreement
open Utf16 TextOrder

structure UnitParts where
  millis : ℕ
  counter : ℕ
  nodeId : List ℕ
  deriving DecidableEq

/-- `^(\d{13})-([0-9a-f]{4})-([^-]+)$` with its three groups. -/
def execHlc (units : List ℕ) : Option (List ℕ × List ℕ × List ℕ) := do
  let node ← Ingest.hlcHead id units
  if node ≠ [] ∧ '-'.toNat ∉ node then some (units.take 13, (units.drop 14).take 4, node)
  else none

def digitValue (unit : ℕ) : ℕ :=
  if unit ≤ '9'.toNat then unit - '0'.toNat else unit - 'a'.toNat + 10

/-- The number of digits that the pattern has let through. -/
def parseInt (radix : ℕ) (units : List ℕ) : ℕ :=
  units.foldl (fun n unit => radix * n + digitValue unit) 0

def parseUnits (timestamp : List ℕ) : Option UnitParts :=
  (execHlc timestamp).map fun m =>
    { millis := parseInt 10 m.1, counter := parseInt 16 m.2.1, nodeId := m.2.2 }

namespace TypeScript

def parseHlc (timestamp : List ℕ) : Option UnitParts := parseUnits timestamp

def compareHlc (a b : List ℕ) : Ordering := if a < b then .lt else if b < a then .gt else .eq

end TypeScript

namespace Dart

def parseHlc (timestamp : List ℕ) : Option UnitParts := parseUnits timestamp

/-- `String.compareTo`. -/
def compareTo : List ℕ → List ℕ → Ordering
  | [], [] => .eq
  | [], _ :: _ => .lt
  | _ :: _, [] => .gt
  | a :: as, b :: bs => (compare a b).then (compareTo as bs)

def compareHlc (a b : List ℕ) : Ordering := compareTo a b

end Dart

def toUnits (parts : HlcParts) : UnitParts :=
  { millis := parts.millis, counter := parts.counter, nodeId := encode parts.nodeId.toList }

def ParsersAgree (timestamp : String) : Prop :=
  TypeScript.parseHlc (encode timestamp.toList) = (parseHlc timestamp).map toUnits ∧
    Dart.parseHlc (encode timestamp.toList) = (parseHlc timestamp).map toUnits

def OrdersAgree (a b : String) : Prop :=
  TypeScript.compareHlc (encode a.toList) (encode b.toList) = compareHlc a b ∧
    Dart.compareHlc (encode a.toList) (encode b.toList) = compareHlc a b

/-- Both texts are read alike, and if they are timestamps they are ordered alike. -/
def ClientsAgree (a b : String) : Prop :=
  ParsersAgree a ∧ ParsersAgree b ∧
    ∀ p q, parseHlc a = some p → parseHlc b = some q → OrdersAgree a b

theorem parseInt_decimal {ms : List Char} {w n : ℕ} (h : Numeral decimal w n ms) :
    parseInt 10 (ms.map Char.toNat) = n := by
  have hdigit : ∀ c ∈ ms, digitValue c.toNat = decimal.digit c := by
    intro c hc
    have hbounds := digit_bounds.mp (h.digits c hc)
    have hnine : '9'.toNat = 57 := rfl
    rw [digitValue, if_pos (by omega)]
    rfl
  rw [← h.value, parseInt, List.foldl_map]
  exact List.foldl_ext _ _ _ fun n c hc => by rw [hdigit c hc]; rfl

theorem parseInt_lowerHex {cs : List Char} {w n : ℕ} (h : Numeral lowerHex w n cs) :
    parseInt 16 (cs.map Char.toNat) = n := by
  have hdigit : ∀ c ∈ cs, digitValue c.toNat = lowerHex.digit c := by
    intro c hc
    have hbounds := lowerHexDigit_bounds.mp (h.digits c hc)
    have hnine : '9'.toNat = 57 := rfl
    have hisDigit : c.isDigit = true ↔ 48 ≤ c.toNat ∧ c.toNat ≤ 57 := digit_bounds
    show _ = if c.isDigit then _ else _
    unfold digitValue
    split
    · rw [if_pos (hisDigit.mpr (by omega))]
    · rw [if_neg (fun hc => absurd (hisDigit.mp hc).2 (by omega))]
  rw [← h.value, parseInt, List.foldl_map]
  exact List.foldl_ext _ _ _ fun n c hc => by rw [hdigit c hc]; rfl

theorem dash_mem_encode (cs : List Char) : '-'.toNat ∈ encode cs ↔ '-' ∈ cs := by
  have hany := Ingest.any_encode (Ingest.ascii_eq (c := '-') (by decide)) cs
  rw [Bool.eq_iff_iff, List.any_eq_true, List.any_eq_true] at hany
  simpa only [decide_eq_true_eq, Char.toNat_inj, exists_eq_right] using hany

theorem encode_eq_nil {cs : List Char} : encode cs = [] ↔ cs = [] := by
  rw [← List.isEmpty_iff, Ingest.isEmpty_encode, List.isEmpty_iff]

theorem execHlc_groups {units ms cs node : List ℕ}
    (h : units = ms ++ '-'.toNat :: (cs ++ '-'.toNat :: node)) (hms : ms.length = 13)
    (hcs : cs.length = 4) : units.take 13 = ms ∧ (units.drop 14).take 4 = cs := by
  rw [h]
  constructor
  · rw [List.take_append_of_le_length hms.ge, ← hms, List.take_length]
  · have hdrop : (ms ++ '-'.toNat :: (cs ++ '-'.toNat :: node)).drop 14 =
        cs ++ '-'.toNat :: node := by
      rw [List.drop_append, List.drop_eq_nil_of_le (by omega), hms]
      rfl
    rw [hdrop, List.take_append_of_le_length hcs.ge, ← hcs, List.take_length]

/-- The regular expression reads every text as the parser by hand does. -/
theorem parseUnits_encode (timestamp : String) :
    parseUnits (encode timestamp.toList) = (parseHlc timestamp).map toUnits := by
  have hhead := Ingest.transfers_hlcHead timestamp.toList
  cases hparse : parseHlc timestamp with
  | some parts =>
    obtain ⟨ms, cs, hms, hcs, hencode⟩ := ClientClock.encode_timestamp hparse
    obtain ⟨-, -, -, -, -, hnode⟩ := parseHlc_eq_some.mp hparse
    simp only [validNodeId, ne_eq, Bool.and_eq_true, decide_eq_true_eq, Bool.not_eq_true',
      List.contains_eq_mem, decide_eq_false_iff_not] at hnode
    have hsplit : encode timestamp.toList = ms.map Char.toNat ++ '-'.toNat ::
        (cs.map Char.toNat ++ '-'.toNat :: encode parts.nodeId.toList) := by
      rw [hencode]
      simp
    have hgroups := execHlc_groups hsplit (by rw [List.length_map, hms.length]; rfl)
      (by rw [List.length_map, hcs.length])
    have hvalid : encode parts.nodeId.toList ≠ [] ∧ '-'.toNat ∉ encode parts.nodeId.toList := by
      rw [ne_eq, encode_eq_nil, dash_mem_encode]
      exact hnode
    rw [Ingest.hlcHead_of_parseHlc hparse, Option.map_some] at hhead
    simp only [parseUnits, execHlc, hhead, Option.bind_eq_bind, Option.bind_some, hvalid, and_self,
      not_false_eq_true, if_true, Option.map_some, hgroups, parseInt_decimal hms,
      parseInt_lowerHex hcs, toUnits, ne_eq]
  | none =>
    rw [parseUnits, execHlc, hhead]
    cases hnode : Ingest.hlcHead Char.toNat timestamp.toList with
    | none => rfl
    | some node =>
      obtain ⟨ms, cs, hlist, hms, hcs⟩ := Ingest.hlcHead_eq_some.mp hnode
      have hinvalid : ¬ (encode node ≠ [] ∧ '-'.toNat ∉ encode node) := by
        rw [ne_eq, encode_eq_nil, dash_mem_encode]
        intro hvalid
        have hnodeId : validNodeId (String.ofList node) = true := by
          simp [validNodeId, String.toList_ofList, hvalid.1, hvalid.2]
        have hsome : parseHlc timestamp = some { millis := decimal.value ms
                                                 counter := lowerHex.value cs
                                                 nodeId := String.ofList node } :=
          parseHlc_eq_some.mpr ⟨ms, cs, by rw [hlist, String.toList_ofList],
            ⟨hms.1, List.all_eq_true.mp hms.2, rfl⟩, ⟨hcs.1, List.all_eq_true.mp hcs.2, rfl⟩,
            hnodeId⟩
        rw [hparse] at hsome
        cases hsome
      simp only [Option.map_some, Option.bind_eq_bind, Option.bind_some, if_neg hinvalid,
        Option.map_none]

theorem parsersAgree (timestamp : String) : ParsersAgree timestamp :=
  ⟨parseUnits_encode timestamp, parseUnits_encode timestamp⟩

theorem typeScript_compareHlc_eq (a b : List ℕ) :
    TypeScript.compareHlc a b = compareOfLessAndEq a b := by
  unfold TypeScript.compareHlc compareOfLessAndEq
  rcases lt_trichotomy a b with h | rfl | h
  · rw [if_pos h, if_pos h]
  · simp
  · rw [if_neg h.asymm, if_pos h, if_neg h.asymm, if_neg h.ne']

theorem dart_compareHlc_eq (a b : List ℕ) : Dart.compareHlc a b = compareOfLessAndEq a b := by
  unfold Dart.compareHlc
  induction a generalizing b with
  | nil =>
    cases b with
    | nil => rfl
    | cons y b => exact (if_pos (List.nil_lt_cons y b)).symm
  | cons x a ih =>
    cases b with
    | nil => rfl
    | cons y b =>
      rw [Dart.compareTo, ih]
      unfold compareOfLessAndEq
      rcases lt_trichotomy x y with h | rfl | h
      · rw [compare_lt_iff_lt.mpr h, if_pos (List.cons_lt_cons_iff.mpr (Or.inl h))]
        rfl
      · simp
      · have hnot : ¬ x :: a < y :: b := by
          rw [List.cons_lt_cons_iff]
          omega
        have hne : x :: a ≠ y :: b := fun heq => h.ne' (List.cons.inj heq).1
        rw [compare_gt_iff_gt.mpr h, if_neg hnot, if_neg hne]
        rfl

theorem utf8_eq (cs : List Char) : utf8 cs = cs.flatMap bytes := by
  rw [utf8, List.map_flatMap]
  rfl

theorem ordersAgree_iff (a b : String) :
    OrdersAgree a b ↔
      ∀ c d, firstDifference a.toList b.toList = some (c, d) → ¬ Straddle c d := by
  rw [← compare_bytes_units_iff, OrdersAgree, typeScript_compareHlc_eq, dart_compareHlc_eq,
    compareHlc, utf8_eq, utf8_eq, and_self, eq_comm]

/-- Where millis or counter differ all clients decide by them. -/
theorem ordersAgree_of_before {a b : String} {p q : HlcParts} (ha : parseHlc a = some p)
    (hb : parseHlc b = some q) (h : p.Before q ∨ q.Before p) : OrdersAgree a b := by
  rw [OrdersAgree, typeScript_compareHlc_eq, dart_compareHlc_eq, and_self, compareHlc,
    compareOfLessAndEq_eq_iff]
  rcases h with h | h
  · have hunits := ClientClock.encode_lt_of_before ha hb h
    have hbytes := utf8_lt_of_before ha hb h
    simp [hunits, hbytes, hunits.asymm, hbytes.asymm]
  · have hunits := ClientClock.encode_lt_of_before hb ha h
    have hbytes := utf8_lt_of_before hb ha h
    simp [hunits, hbytes, hunits.asymm, hbytes.asymm]

/-- All three clients read every text alike. They order two timestamps alike exactly if these differ
in their numerals, or their node ids do not first differ between a character of two code units and
one above the surrogates. -/
theorem clientsAgree_iff (a b : String) :
    ClientsAgree a b ↔ ∀ p q, parseHlc a = some p → parseHlc b = some q →
      p.millis = q.millis → p.counter = q.counter →
        ∀ c d, firstDifference p.nodeId.toList q.nodeId.toList = some (c, d) → ¬ Straddle c d := by
  have hparsers : ClientsAgree a b ↔
      ∀ p q, parseHlc a = some p → parseHlc b = some q → OrdersAgree a b := by
    rw [ClientsAgree, and_iff_right (parsersAgree a), and_iff_right (parsersAgree b)]
  rw [hparsers]
  refine forall₂_congr fun p q => forall₂_congr fun ha hb => ?_
  rcases HlcParts.before_trichotomy p q with h | h | ⟨hmillis, hcounter⟩
  · refine iff_of_true (ordersAgree_of_before ha hb (Or.inl h)) fun hmillis hcounter => ?_
    unfold HlcParts.Before at h
    omega
  · refine iff_of_true (ordersAgree_of_before ha hb (Or.inr h)) fun hmillis hcounter => ?_
    unfold HlcParts.Before at h
    omega
  · obtain ⟨ms, cs, hp, hms, hcs⟩ := exists_prefix ha
    obtain ⟨ms', cs', hq, hms', hcs'⟩ := exists_prefix hb
    rw [← hmillis] at hms'
    rw [← hcounter] at hcs'
    obtain rfl := hms.unique hms'
    obtain rfl := hcs.unique hcs'
    rw [ordersAgree_iff, hp.toList, hq.toList, firstDifference_append]
    exact ⟨fun h _ _ => h, fun h => h hmillis hcounter⟩

def nodeTimestamp (node : Char) : String :=
  String.ofList (List.replicate 13 '0' ++ '-' :: (List.replicate 4 '0' ++ ['-', node]))

theorem parseHlc_nodeTimestamp {node : Char} (h : node ≠ '-') :
    parseHlc (nodeTimestamp node) =
      some { millis := 0, counter := 0, nodeId := String.ofList [node] } := by
  have hnode : validNodeId (String.ofList [node]) = true := by
    simp [validNodeId, Ne.symm h]
  have hdigit : ∀ (r : FixedWidth.Radix Char) (n : ℕ), r.IsDigit '0' →
      ∀ c ∈ List.replicate n '0', r.IsDigit c := by
    intro r n hzero c hc
    rw [List.eq_of_mem_replicate hc]
    exact hzero
  refine parseHlc_eq_some.mpr ⟨List.replicate 13 '0', List.replicate 4 '0', ?_, ?_, ?_, hnode⟩
  · rw [nodeTimestamp, String.toList_ofList, String.toList_ofList]
  · exact ⟨rfl, hdigit decimal 13 rfl, rfl⟩
  · exact ⟨rfl, hdigit lowerHex 4 rfl, rfl⟩

/-- A node id of one emoji against one of a full-width letter. -/
theorem emoji_straddles : ¬ ClientsAgree (nodeTimestamp '😀') (nodeTimestamp 'ｚ') := by
  intro h
  have horders := h.2.2 _ _ (parseHlc_nodeTimestamp (by decide)) (parseHlc_nodeTimestamp (by decide))
  refine (ordersAgree_iff _ _).mp horders '😀' 'ｚ' ?_ (Or.inr (by decide))
  rw [nodeTimestamp, nodeTimestamp, String.toList_ofList, String.toList_ofList]
  decide

end OptoSync.HlcAgreement
