import Mathlib

/-!
# Host names and address literals

Which hosts lie inside a trust boundary, by what their names say: loopback, private and link-local
address literals, single labels and in-cluster names. A host is the list of its characters, in
lower case and without brackets.
-/
namespace OptoSync.HostNames

/-- Four numbers in dotted decimal, without leading zeros. -/
def dottedQuad (a b c d : ℕ) : List Char :=
  ['.'].intercalate [Nat.toDigits 10 a, Nat.toDigits 10 b, Nat.toDigits 10 c, Nat.toDigits 10 d]

structure IsQuad (a b c d : ℕ) (host : List Char) : Prop where
  bounds : a < 256 ∧ b < 256 ∧ c < 256 ∧ d < 256
  text : host = dottedQuad a b c d

/-- Loopback, the three private ranges and link-local. -/
def InternalQuad (a b : ℕ) : Prop :=
  a = 127 ∨ a = 10 ∨ (a = 172 ∧ 16 ≤ b ∧ b ≤ 31) ∨ (a = 192 ∧ b = 168) ∨ (a = 169 ∧ b = 254)

instance (a b : ℕ) : Decidable (InternalQuad a b) :=
  inferInstanceAs (Decidable (_ ∨ _))

def InternalIpv4 (host : List Char) : Prop :=
  ∃ a b c d, IsQuad a b c d host ∧ InternalQuad a b

def hexDigit (c : Char) : Option ℕ :=
  if c.isDigit then some (c.toNat - '0'.toNat)
  else if 'a' ≤ c ∧ c ≤ 'f' then some (c.toNat - 'a'.toNat + 10)
  else none

/-- One to four hexadecimal digits. -/
structure IsHextet (cs : List Char) : Prop where
  nonempty : cs ≠ []
  length : cs.length ≤ 4
  digits : ∀ c ∈ cs, (hexDigit c).isSome = true

def hexValue (cs : List Char) : ℕ := cs.foldl (fun n c => 16 * n + (hexDigit c).getD 0) 0

/-- Hextets with colons between them. -/
inductive Hextets : List Char → List ℕ → Prop
  | one {cs : List Char} (h : IsHextet cs) : Hextets cs [hexValue cs]
  | cons {cs rest : List Char} {values : List ℕ} (h : IsHextet cs) (hrest : Hextets rest values) :
      Hextets (cs ++ ':' :: rest) (hexValue cs :: values)

/-- Hextets of which the last two may be a dotted quad. -/
inductive Groups : List Char → List ℕ → Prop
  | one {cs : List Char} (h : IsHextet cs) : Groups cs [hexValue cs]
  | quad {cs : List Char} {a b c d : ℕ} (h : IsQuad a b c d cs) :
      Groups cs [256 * a + b, 256 * c + d]
  | cons {cs rest : List Char} {values : List ℕ} (h : IsHextet cs) (hrest : Groups rest values) :
      Groups (cs ++ ':' :: rest) (hexValue cs :: values)

/-- The text of an IPv6 address and its eight groups. A double colon stands for zeros. -/
inductive Ipv6 : List Char → List ℕ → Prop
  | full {cs : List Char} {values : List ℕ} (h : Groups cs values) (hlength : values.length = 8) :
      Ipv6 cs values
  | compressed {left right : List Char} {l r : List ℕ}
      (hleft : (left = [] ∧ l = []) ∨ Hextets left l)
      (hright : (right = [] ∧ r = []) ∨ Groups right r) (hlength : l.length + r.length ≤ 7) :
      Ipv6 (left ++ ':' :: ':' :: right) (l ++ List.replicate (8 - l.length - r.length) 0 ++ r)

/-- Loopback, unique local and link-local. -/
def InternalGroups (groups : List ℕ) : Prop :=
  groups = [0, 0, 0, 0, 0, 0, 0, 1] ∨
    ∃ first ∈ groups.head?, (0xfc00 ≤ first ∧ first ≤ 0xfdff) ∨ (0xfe80 ≤ first ∧ first ≤ 0xfebf)

/-- The literal may name a zone. -/
def InternalIpv6 (host : List Char) : Prop :=
  ∃ address zone groups, (host = address ∨ host = address ++ '%' :: zone) ∧ Ipv6 address groups ∧
    InternalGroups groups

def Localhost (host : List Char) : Prop :=
  host = "localhost".toList ∨ ".localhost".toList <:+ host

def isLabelChar (c : Char) : Bool :=
  c.isDigit || ('a' ≤ c && c ≤ 'z') || c = '-' || c = '_'

/-- A label that resolvers read as a number is an address. -/
def IsNumber (host : List Char) : Prop :=
  host.all Char.isDigit = true ∨
    ∃ digits, host = '0' :: 'x' :: digits ∧ digits.all (fun c => (hexDigit c).isSome) = true

structure SingleLabel (host : List Char) : Prop where
  nonempty : host ≠ []
  label : host.all isLabelChar = true
  notNumber : ¬ IsNumber host

def InCluster (host : List Char) : Prop :=
  ".svc.cluster.local".toList <:+ host ∨ ".internal".toList <:+ host

instance (host : List Char) : Decidable (Localhost host) := inferInstanceAs (Decidable (_ ∨ _))

instance (host : List Char) : Decidable (InCluster host) := inferInstanceAs (Decidable (_ ∨ _))

/-- The hosts inside the boundary. -/
def Internal (host : List Char) : Prop :=
  Localhost host ∨ InternalIpv4 host ∨ InternalIpv6 host ∨ SingleLabel host ∨ InCluster host

theorem Groups.colon {cs : List Char} {values : List ℕ} (h : Groups cs values)
    (hlength : values.length = 8) : ':' ∈ cs := by
  cases h with
  | one h => simp at hlength
  | quad h => simp at hlength
  | cons h hrest => simp

theorem Ipv6.colon {cs : List Char} {groups : List ℕ} (h : Ipv6 cs groups) : ':' ∈ cs := by
  cases h with
  | full h hlength => exact h.colon hlength
  | compressed hleft hright hlength => simp

theorem InternalIpv6.colon {host : List Char} (h : InternalIpv6 host) : ':' ∈ host := by
  obtain ⟨address, zone, groups, htext, haddress, -⟩ := h
  rcases htext with rfl | rfl
  · exact haddress.colon
  · exact List.mem_append_left _ haddress.colon

theorem mem_dottedQuad {a b c d : ℕ} {ch : Char} (h : ch ∈ dottedQuad a b c d) :
    ch.isDigit = true ∨ ch = '.' := by
  have hdigit : ∀ n, ch ∈ Nat.toDigits 10 n → ch.isDigit = true := fun n hn =>
    Nat.isDigit_of_mem_toDigits (by norm_num) (by norm_num) hn
  simp only [dottedQuad, List.intercalate, List.intersperse, List.flatten_cons, List.flatten_nil,
    List.mem_append, List.mem_singleton, List.not_mem_nil, or_false] at h
  rcases h with h | h | h | h | h | h | h
  · exact .inl (hdigit a h)
  · exact .inr h
  · exact .inl (hdigit b h)
  · exact .inr h
  · exact .inl (hdigit c h)
  · exact .inr h
  · exact .inl (hdigit d h)

theorem dot_mem_dottedQuad (a b c d : ℕ) : '.' ∈ dottedQuad a b c d := by
  simp [dottedQuad, List.intercalate, List.intersperse]

theorem InternalIpv4.digits {host : List Char} (h : InternalIpv4 host) :
    ∀ c ∈ host, c.isDigit = true ∨ c = '.' := by
  obtain ⟨a, b, c, d, hquad, -⟩ := h
  intro ch hch
  rw [hquad.text] at hch
  exact mem_dottedQuad hch

theorem InternalIpv4.dot {host : List Char} (h : InternalIpv4 host) : '.' ∈ host := by
  obtain ⟨a, b, c, d, hquad, -⟩ := h
  rw [hquad.text]
  exact dot_mem_dottedQuad a b c d

theorem SingleLabel.dot {host : List Char} (h : SingleLabel host) : '.' ∉ host := by
  intro hdot
  have := List.all_eq_true.mp h.label '.' hdot
  revert this
  decide

theorem Localhost.letter {host : List Char} (h : Localhost host) : 'l' ∈ host := by
  rcases h with rfl | hsuffix
  · decide
  · exact hsuffix.subset (by decide)

theorem InCluster.letter {host : List Char} (h : InCluster host) : 'l' ∈ host := by
  rcases h with hsuffix | hsuffix
  · exact hsuffix.subset (by decide)
  · exact hsuffix.subset (by decide)

theorem InCluster.dot {host : List Char} (h : InCluster host) : '.' ∈ host := by
  rcases h with hsuffix | hsuffix
  · exact hsuffix.subset (by decide)
  · exact hsuffix.subset (by decide)

theorem internal_loopback : InternalIpv6 [':', ':', '1'] := by
  have hextet : IsHextet ['1'] := by
    constructor
    · simp
    · simp
    · simp [hexDigit, Char.isDigit]
  have hone : hexValue ['1'] = 1 := by simp [hexValue, hexDigit, Char.isDigit]
  have hgroups : Groups ['1'] [1] := hone ▸ Groups.one hextet
  have htext : Ipv6 [':', ':', '1'] [0, 0, 0, 0, 0, 0, 0, 1] :=
    Ipv6.compressed (.inl ⟨rfl, rfl⟩) (.inr hgroups) (by simp)
  exact ⟨_, [], _, .inl rfl, htext, .inl rfl⟩

end OptoSync.HostNames
