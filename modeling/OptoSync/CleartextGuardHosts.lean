import OptoSync.CleartextGuard
import OptoSync.SpecialUrl

/-!
# What the cleartext guards let through

Each guard lets a token out to internal hosts alone, except for the hosts that look internal to it
and are not.
-/
namespace OptoSync
open HostNames Decimal

namespace CleartextGuard

/-- A host as it stands in an authority: a literal in brackets, or a name. -/
inductive HostText : List Char → List Char → Prop
  | literal {host : List Char}
      (h : ∀ c ∈ host, c ≠ ']' ∧ c ≠ '@' ∧ isDelimiter c = false) :
      HostText ('[' :: (host ++ [']'])) host
  | name {host : List Char} (h : ∀ c ∈ host, c ≠ ':' ∧ c ≠ '@' ∧ isDelimiter c = false)
      (hstart : host.head? ≠ some '[') : HostText host host

/-- The host of a cleartext URL by the generic syntax: user information may stand before it in the
authority, and a port behind it. -/
structure UrlHost (url host : List Char) : Prop where
  parts : ∃ scheme user text port rest,
    url = scheme ++ ([':', '/', '/'] ++ (user ++ (text ++ port) ++ rest)) ∧
    (scheme.map Char.toLower = ['w', 's'] ∨ scheme.map Char.toLower = ['h', 't', 't', 'p']) ∧
    (user = [] ∨ ∃ info, user = info ++ ['@'] ∧ ∀ c ∈ info, isDelimiter c = false) ∧
    HostText text host ∧
    (port = [] ∨ ∃ digits, port = ':' :: digits ∧ ∀ c ∈ digits, c ≠ '@' ∧ isDelimiter c = false) ∧
    ∀ c ∈ rest.head?, isDelimiter c = true

theorem afterScheme_append {scheme rest : List Char}
    (h : scheme.map Char.toLower = ['w', 's'] ∨ scheme.map Char.toLower = ['h', 't', 't', 'p']) :
    afterScheme (scheme ++ ([':', '/', '/'] ++ rest)) = some rest := by
  rcases h with h | h
  · obtain ⟨a, b, rfl⟩ : ∃ a b, scheme = [a, b] := by
      have hlength := congrArg List.length h
      rw [List.length_map] at hlength
      exact List.length_eq_two.mp hlength
    have hscheme : [a, b, ':', '/', '/'].map Char.toLower = "ws://".toList := by
      rw [show [a, b, ':', '/', '/'] = [a, b] ++ [':', '/', '/'] from rfl, List.map_append, h]
      rfl
    rw [afterScheme, if_pos (by exact hscheme)]
    rfl
  · obtain ⟨a, b, c, d, rfl⟩ : ∃ a b c d, scheme = [a, b, c, d] := by
      have hlength := congrArg List.length h
      rw [List.length_map] at hlength
      match scheme, hlength with
      | [a, b, c, d], _ => exact ⟨a, b, c, d, rfl⟩
    have hscheme : [a, b, c, d, ':', '/', '/'].map Char.toLower = "http://".toList := by
      rw [show [a, b, c, d, ':', '/', '/'] = [a, b, c, d] ++ [':', '/', '/'] from rfl,
        List.map_append, h]
      rfl
    have hother : [a, b, c, d, ':'].map Char.toLower ≠ "ws://".toList := by
      rw [show [a, b, c, d, ':'] = [a, b, c, d] ++ [':'] from rfl, List.map_append, h]
      decide
    rw [afterScheme, if_neg (by exact hother), if_pos (by exact hscheme)]
    rfl

theorem HostText.plain {text host : List Char} (h : HostText text host) :
    ∀ c ∈ text, c ≠ '@' ∧ isDelimiter c = false := by
  intro c hc
  cases h with
  | literal h =>
    rcases List.mem_cons.mp hc with rfl | hc
    · decide
    · rcases List.mem_append.mp hc with hc | hc
      · exact (h c hc).2
      · rw [List.mem_singleton.mp hc]
        decide
  | name h hstart => exact (h c hc).2

theorem takeWhile_head {p : Char → Bool} {rest : List Char} (h : ∀ c ∈ rest.head?, p c = false) :
    rest.takeWhile p = [] := by
  cases rest with
  | nil => rfl
  | cons c rest => exact List.takeWhile_cons_of_neg (by simp [h c rfl])

/-- User information, path and query are cut off. -/
theorem hostPort_eq {url host : List Char} (h : UrlHost url host) :
    ∃ text port, hostPort url = some (text ++ port) ∧ HostText text host ∧
      (port = [] ∨ ∃ digits, port = ':' :: digits) := by
  obtain ⟨scheme, user, text, port, rest, rfl, hscheme, huser, htext, hport, hrest⟩ := h.parts
  have hplain : ∀ c ∈ text ++ port, c ≠ '@' ∧ isDelimiter c = false := by
    intro c hc
    rcases List.mem_append.mp hc with hc | hc
    · exact htext.plain c hc
    · rcases hport with rfl | ⟨digits, rfl, hdigits⟩
      · cases hc
      · rcases List.mem_cons.mp hc with rfl | hc
        · decide
        · exact hdigits c hc
  have hauthority : (user ++ (text ++ port) ++ rest).takeWhile (!isDelimiter ·) =
      user ++ (text ++ port) := by
    rw [List.takeWhile_append_of_pos, takeWhile_head, List.append_nil]
    · intro c hc
      simp [hrest c hc]
    · intro c hc
      rcases List.mem_append.mp hc with hc | hc
      · rcases huser with rfl | ⟨info, rfl, hinfo⟩
        · cases hc
        · rcases List.mem_append.mp hc with hc | hc
          · simp [hinfo c hc]
          · rw [List.mem_singleton.mp hc]
            decide
      · simp [(hplain c hc).2]
  have huserEnd : (user.reverse).takeWhile (· ≠ '@') = [] := by
    apply takeWhile_head
    intro c hc
    rcases huser with rfl | ⟨info, rfl, -⟩
    · cases hc
    · rw [List.reverse_append] at hc
      have : c = '@' := by simpa using hc.symm
      simp [this]
  refine ⟨text, port, ?_, htext, ?_⟩
  · rw [hostPort, afterScheme_append hscheme, Option.map_some, hauthority, List.rtakeWhile,
      List.reverse_append, List.takeWhile_append_of_pos, huserEnd, List.append_nil,
      List.reverse_reverse]
    intro c hc
    simp [(hplain c (List.mem_reverse.mp hc)).1]
  · exact hport.imp_right fun ⟨digits, hdigits, _⟩ => ⟨digits, hdigits⟩

theorem takeWhile_bracket {host rest : List Char} (h : ∀ c ∈ host, c ≠ ']') :
    (host ++ ']' :: rest).takeWhile (· ≠ ']') = host := by
  rw [List.takeWhile_append_of_pos, takeWhile_head, List.append_nil]
  · simp
  · intro c hc
    simp [h c hc]

theorem takeWhile_port {host port : List Char} (h : ∀ c ∈ host, c ≠ ':')
    (hport : port = [] ∨ ∃ digits, port = ':' :: digits) :
    (host ++ port).takeWhile (· ≠ ':') = host := by
  rw [List.takeWhile_append_of_pos, takeWhile_head, List.append_nil]
  · rcases hport with rfl | ⟨digits, rfl⟩ <;> simp
  · intro c hc
    simp [h c hc]

theorem not_bracket {host port : List Char} (h : host.head? ≠ some '[')
    (hport : port = [] ∨ ∃ digits, port = ':' :: digits) (rest : List Char) :
    host ++ port ≠ '[' :: rest := by
  intro heq
  cases host with
  | nil => rcases hport with rfl | ⟨digits, rfl⟩ <;> simp at heq
  | cons c host =>
    simp only [List.cons_append, List.cons.injEq] at heq
    exact h (by rw [heq.1]; rfl)

/-- What looks internal to the classification and is not: an empty host, one without a dot that is
neither a label nor an internal literal, a name or another literal that begins like an internal
literal, and parts that read as internal octets without being written so. -/
def LooksInternal (prefixes : List (List Char)) (piece : List Char → Option ℕ)
    (host : List Char) : Prop :=
  host = [] ∨ ('.' ∉ host ∧ ¬ SingleLabel host ∧ ¬ InternalIpv6 host) ∨
    ((∃ start ∈ prefixes, start <+: host) ∧ '.' ∈ host ∧ ¬ Localhost host ∧ ¬ InCluster host ∧
      ¬ InternalIpv6 host) ∨
    ∃ a b, octetsWith piece host = some (a, b) ∧ InternalQuad a b ∧ ¬ InternalIpv4 host

/-- What the classification admits. -/
def Admitted (prefixes : List (List Char)) (piece : List Char → Option ℕ) (host : List Char) :
    Prop :=
  host = [] ∨ Localhost host ∨ (∃ start ∈ prefixes, start <+: host) ∨ '.' ∉ host ∨
    InCluster host ∨ ∃ a b, octetsWith piece host = some (a, b) ∧ InternalQuad a b

variable {prefixes : List (List Char)} {piece : List Char → Option ℕ} {host : List Char}

theorem singleLabel_localhost : SingleLabel "localhost".toList := by
  refine ⟨by decide, by decide, ?_⟩
  rintro (hdigits | ⟨digits, htext, -⟩)
  · exact absurd hdigits (by decide)
  · simp at htext

theorem forall₂_of_mapM {α β : Type} {f : α → Option β} {l : List α} {r : List β}
    (h : l.mapM f = some r) : List.Forall₂ (fun a b => f a = some b) l r := by
  induction l generalizing r with
  | nil =>
    cases h
    exact .nil
  | cons a l ih =>
    rw [List.mapM_cons] at h
    simp only [bind, Option.bind_eq_some_iff, pure, Option.some.injEq] at h
    obtain ⟨b, hb, rest, hrest, rfl⟩ := h
    exact .cons hb (ih hrest)

/-- Four parts between dots. -/
theorem octetsWith_eq_some {a b : ℕ}
    (hpiece : ∀ cs n, piece cs = some n → ∀ c ∈ cs, c.isDigit = true ∨ c = '+')
    (h : octetsWith piece host = some (a, b)) :
    '.' ∈ host ∧ ∀ c ∈ host, c.isDigit = true ∨ c = '+' ∨ c = '.' := by
  unfold octetsWith at h
  split at h
  · rename_i first second third fourth hpieces
    have hhost : ['.'].intercalate (host.splitOn '.') = host := List.intercalate_splitOn '.'
    generalize host.splitOn '.' = parts at hpieces hhost
    obtain ⟨w, x, y, z, rfl, hw, hx, hy, hz⟩ : ∃ w x y z, parts = [w, x, y, z] ∧
        piece w = some first ∧ piece x = some second ∧ piece y = some third ∧
          piece z = some fourth := by
      cases forall₂_of_mapM hpieces with
      | cons hw hrest => cases hrest with
        | cons hx hrest => cases hrest with
          | cons hy hrest => cases hrest with
            | cons hz hrest => cases hrest with
              | nil => exact ⟨_, _, _, _, rfl, hw, hx, hy, hz⟩
    have hhost' : host = w ++ '.' :: (x ++ '.' :: (y ++ '.' :: z)) := by
      rw [← hhost]
      simp [List.intercalate, List.intersperse]
    refine ⟨by rw [hhost']; simp, fun c hc => ?_⟩
    simp only [hhost', List.mem_append, List.mem_cons] at hc
    rcases hc with hc | rfl | hc | rfl | hc | rfl | hc
    · exact (hpiece w _ hw c hc).imp_right .inl
    · exact .inr (.inr rfl)
    · exact (hpiece x _ hx c hc).imp_right .inl
    · exact .inr (.inr rfl)
    · exact (hpiece y _ hy c hc).imp_right .inl
    · exact .inr (.inr rfl)
    · exact (hpiece z _ hz c hc).imp_right .inl
  · cases h

section
variable (hpiece : ∀ cs n, piece cs = some n → ∀ c ∈ cs, c.isDigit = true ∨ c = '+')
  (hstarts : ∀ start ∈ prefixes, 'f' ∈ start)
include hpiece hstarts

theorem LooksInternal.not_internal (h : LooksInternal prefixes piece host) : ¬ Internal host := by
  rcases h with rfl | ⟨hdot, hlabel, hv6⟩ |
    ⟨⟨start, hstart, hbegins⟩, hdot, hlocal, hcluster, hv6⟩ | ⟨a, b, hoctets, -, hv4⟩
  · rintro (hlocal | hv4 | hv6 | hlabel | hcluster)
    · cases hlocal.letter
    · cases hv4.dot
    · cases hv6.colon
    · exact hlabel.nonempty rfl
    · cases hcluster.letter
  · rintro (hlocal | hv4 | hv6' | hlabel' | hcluster)
    · rcases hlocal with rfl | hsuffix
      · exact hlabel singleLabel_localhost
      · exact hdot (hsuffix.subset (by decide))
    · exact hdot hv4.dot
    · exact hv6 hv6'
    · exact hlabel hlabel'
    · exact hdot hcluster.dot
  · rintro (hlocal' | hv4 | hv6' | hlabel | hcluster')
    · exact hlocal hlocal'
    · rcases hv4.digits 'f' (hbegins.subset (hstarts start hstart)) with hf | hf
      · exact absurd hf (by decide)
      · exact absurd hf (by decide)
    · exact hv6 hv6'
    · exact hlabel.dot hdot
    · exact hcluster hcluster'
  · obtain ⟨hdot, hchars⟩ := octetsWith_eq_some hpiece hoctets
    have hletter : 'l' ∉ host := by
      intro hl
      have := hchars 'l' hl
      revert this
      decide
    rintro (hlocal | hv4' | hv6 | hlabel | hcluster)
    · exact hletter hlocal.letter
    · exact hv4 hv4'
    · have := hchars ':' hv6.colon
      revert this
      decide
    · exact hlabel.dot hdot
    · exact hletter hcluster.letter

/-- The hosts that the classification admits are the internal ones and those that look so. -/
theorem allowed_and_not_internal_iff :
    internalHostAllowedWith prefixes piece host = true ∧ ¬ Internal host ↔
      LooksInternal prefixes piece host := by
  constructor
  · rintro ⟨hallowed, hnot⟩
    unfold internalHostAllowedWith at hallowed
    split at hallowed
    · rename_i hempty
      rcases hempty with hempty | hlocal
      · exact .inl hempty
      · exact absurd (.inl hlocal) hnot
    · rename_i hfirst
      have hlocal : ¬ Localhost host := fun h => hfirst (.inr h)
      have hcluster : ¬ InCluster host := fun h => hnot (.inr (.inr (.inr (.inr h))))
      have hlabel : ¬ SingleLabel host := fun h => hnot (.inr (.inr (.inr (.inl h))))
      have hv6 : ¬ InternalIpv6 host := fun h => hnot (.inr (.inr (.inl h)))
      by_cases hdot : '.' ∈ host
      · split at hallowed
        · rename_i hsecond
          rcases hsecond with rfl | hstart
          · exact absurd internal_loopback hv6
          · exact .inr (.inr (.inl ⟨hstart, hdot, hlocal, hcluster, hv6⟩))
        · split at hallowed
          · rename_i a b hoctets
            refine .inr (.inr (.inr ⟨a, b, hoctets, of_decide_eq_true hallowed, ?_⟩))
            exact fun h => hnot (.inr (.inl h))
          · simp [hdot, hcluster] at hallowed
      · exact .inr (.inl ⟨hdot, hlabel, hv6⟩)
  · intro h
    refine ⟨?_, h.not_internal hpiece hstarts⟩
    unfold internalHostAllowedWith
    split
    · rfl
    · rename_i hfirst
      split
      · rfl
      · rename_i hsecond
        rcases h with hempty | ⟨hdot, -, -⟩ | ⟨hstart, -⟩ | ⟨a, b, hoctets, hinternal, -⟩
        · exact absurd (.inl hempty) hfirst
        · cases hoctets : octetsWith piece host with
          | none => simp [hdot]
          | some octets => exact absurd (octetsWith_eq_some hpiece hoctets).1 hdot
        · exact absurd (.inr hstart) hsecond
        · rw [hoctets]
          exact decide_eq_true hinternal

omit hstarts in
/-- The classification, kind by kind. -/
theorem internalHostAllowedWith_iff :
    internalHostAllowedWith prefixes piece host = true ↔ Admitted prefixes piece host := by
  unfold internalHostAllowedWith Admitted
  by_cases hfirst : host = [] ∨ Localhost host
  · rw [if_pos hfirst]
    exact iff_of_true rfl (by tauto)
  · rw [if_neg hfirst]
    have hrest : ∀ p : Prop, (host = [] ∨ Localhost host ∨ p) ↔ p := by tauto
    rw [hrest]
    by_cases hsecond : host = [':', ':', '1'] ∨ ∃ start ∈ prefixes, start <+: host
    · rw [if_pos hsecond]
      refine iff_of_true rfl ?_
      rcases hsecond with rfl | hstart
      · exact .inr (.inl (by decide))
      · exact .inl hstart
    · rw [if_neg hsecond]
      have hstart : ¬ ∃ start ∈ prefixes, start <+: host := fun h => hsecond (.inr h)
      rw [or_iff_right hstart]
      cases hoctets : octetsWith piece host with
      | none => simp
      | some octets =>
        obtain ⟨a, b⟩ := octets
        obtain ⟨hdot, hchars⟩ := octetsWith_eq_some hpiece hoctets
        have hcluster : ¬ InCluster host := by
          intro h
          have := hchars 'l' h.letter
          revert this
          decide
        simp [hdot, hcluster]

end

end CleartextGuard

open CleartextGuard

/-! ## The Rust transport -/

namespace WsTransport

theorem cleartextHost_eq {url host : List Char} (h : UrlHost url host) :
    cleartextHost url = some host := by
  obtain ⟨text, port, hurl, htext, hport⟩ := hostPort_eq h
  rw [cleartextHost, hurl, Option.map_some]
  cases htext with
  | literal h =>
    rw [show '[' :: (host ++ [']']) ++ port = '[' :: (host ++ ']' :: port) by simp]
    exact congrArg some (takeWhile_bracket fun c hc => (h c hc).1)
  | name h hstart =>
    split
    · rename_i v6 heq
      exact absurd heq (not_bracket hstart hport v6)
    · exact congrArg some (takeWhile_port (fun c hc => (h c hc).1) hport)

theorem parseU8_chars (cs : List Char) (n : ℕ) (h : parseU8 cs = some n) :
    ∀ c ∈ cs, c.isDigit = true ∨ c = '+' := by
  have hdigits : ∀ ds : List Char, (parseDigits ds).filter (· ≤ 255) = some n →
      ∀ c ∈ ds, c.isDigit = true := by
    intro ds hds
    have hparse := (Option.filter_eq_some_iff.mp hds).1
    unfold parseDigits at hparse
    split at hparse
    · rename_i hall
      exact List.all_eq_true.mp hall.2
    · cases hparse
  unfold parseU8 at h
  intro c hc
  split at h
  · rename_i ds
    rcases List.mem_cons.mp hc with rfl | hc
    · exact .inr rfl
    · exact .inl (hdigits ds h c hc)
  · exact .inl (hdigits cs h c hc)

theorem prefixes_f : ∀ start ∈ prefixes, 'f' ∈ start := by decide

theorem dialUrl_eq_ok {url token : String} {host : List Char} (hhost : UrlHost url.toList host)
    (htoken : token ≠ "") :
    (∃ target, dialUrl url (some token) = .ok target) ↔ internalHostAllowed host = true := by
  simp only [dialUrl, if_neg htoken, cleartextHost_eq hhost]
  cases internalHostAllowed host with
  | true => simp
  | false => simp

/-- A token leaves over cleartext for internal hosts alone exactly if the host of the URL does not
look internal to the guard without being so. -/
theorem dialUrl_guarded_iff (url : String) :
    (∀ token, token ≠ "" → ∀ target, dialUrl url (some token) = .ok target →
      ∀ host, UrlHost url.toList host → Internal (normalizeHost host)) ↔
      ∀ host, UrlHost url.toList host → ¬ LooksInternal prefixes parseU8 (normalizeHost host) := by
  constructor
  · intro h host hhost hlooks
    obtain ⟨hallowed, hnot⟩ := (allowed_and_not_internal_iff parseU8_chars prefixes_f).mpr hlooks
    obtain ⟨target, htarget⟩ := (dialUrl_eq_ok hhost (by decide : "t" ≠ "")).mpr hallowed
    exact hnot (h "t" (by decide) target htarget host hhost)
  · intro h token htoken target htarget host hhost
    have hallowed := (dialUrl_eq_ok hhost htoken).mp ⟨target, htarget⟩
    by_contra hnot
    exact h host hhost ((allowed_and_not_internal_iff parseU8_chars prefixes_f).mp ⟨hallowed, hnot⟩)

theorem urlHost_relay :
    UrlHost "ws://fd-relay.example.com/sync".toList "fd-relay.example.com".toList := by
  have hchars : "fd-relay.example.com".toList.all
      (fun c => c ≠ ':' && c ≠ '@' && !isDelimiter c) = true := by decide
  have hname : ∀ c ∈ "fd-relay.example.com".toList, c ≠ ':' ∧ c ≠ '@' ∧ isDelimiter c = false := by
    intro c hc
    simpa [and_assoc] using List.all_eq_true.mp hchars c hc
  refine ⟨"ws".toList, [], "fd-relay.example.com".toList, [], "/sync".toList, by decide, by decide,
    .inl rfl, .name hname (by decide), .inl rfl, fun c hc => ?_⟩
  rw [← Option.some.inj hc]
  rfl

set_option maxRecDepth 4000 in
/-- A public name that begins like a unique local address. -/
theorem public_name_admitted :
    dialUrl "ws://fd-relay.example.com/sync" (some "secret") =
        .ok "ws://fd-relay.example.com/sync?token=secret" ∧
      UrlHost "ws://fd-relay.example.com/sync".toList "fd-relay.example.com".toList ∧
      ¬ Internal (normalizeHost "fd-relay.example.com".toList) := by
  refine ⟨by decide, urlHost_relay, ?_⟩
  apply LooksInternal.not_internal parseU8_chars prefixes_f
  refine .inr (.inr (.inl ⟨by decide, by decide, by decide, by decide, fun h => ?_⟩))
  exact absurd h.colon (by decide)

end WsTransport

/-! ## The TypeScript transports -/

namespace WebSocketTransport

variable (toLowerCase : List Char → List Char) {parseHost : List Char → Option (List Char)}

theorem digitsPiece_chars (cs : List Char) (n : ℕ) (h : digitsPiece cs = some n) :
    ∀ c ∈ cs, c.isDigit = true ∨ c = '+' := by
  intro c hc
  unfold digitsPiece parseDigits at h
  split at h
  · split at h
    · rename_i hall
      exact .inl (List.all_eq_true.mp hall.2 c hc)
    · cases h
  · cases h

/-- A token goes into a URL without fragment, of which the guard reads no host or an admitted one. -/
theorem dialUrl_eq_ok {url token target : String} (htoken : token ≠ "") :
    dialUrl toLowerCase url (some token) = .ok target ↔
      (∀ host, cleartextHost toLowerCase url.toList = some host →
        Admitted prefixes digitsPiece host) ∧ '#' ∉ url.toList ∧
      withToken isUnreserved url token = target := by
  simp only [dialUrl, if_neg htoken, requireEncryptedTransport]
  have hfragment : (do
      if '#' ∈ url.toList then
        throw "websocket URL must not contain a fragment when authentication is enabled"
      pure (withToken isUnreserved url token) : Except String String) = .ok target ↔
      '#' ∉ url.toList ∧ withToken isUnreserved url token = target := by
    by_cases h : '#' ∈ url.toList
    · simp [h, bind, Except.bind, throw, throwThe, MonadExceptOf.throw]
    · simp [h, pure, Except.pure]
  cases hhost : cleartextHost toLowerCase url.toList with
  | none =>
    simp only [reduceCtorEq, false_implies, implies_true, true_and]
    exact hfragment
  | some host =>
    simp only [Option.some.injEq, forall_eq']
    rw [← internalHostAllowedWith_iff digitsPiece_chars]
    cases hallowed : internalHostAllowed host with
    | false =>
      rw [internalHostAllowed] at hallowed
      simp [hallowed, bind, Except.bind]
    | true =>
      rw [internalHostAllowed] at hallowed
      rw [hallowed]
      simp only [Bool.true_eq_false, if_false, true_and]
      exact hfragment

end WebSocketTransport

namespace NodeTcp

variable (toLowerCase : List Char → List Char)

end NodeTcp

namespace CleartextGuard

end CleartextGuard
end OptoSync
