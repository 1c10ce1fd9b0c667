import Jzf407.Web.Connection

/-!
# A save request in several segments

TCP may deliver a request in any number of reads, and `serveConnection` takes only the first.
A `SaveRequest` is a `POST /save` as bytes, and a `Segmentation` of its bytes is what the
successive reads return: none is empty or longer than the buffer, and together they are the request.

A first read that ends inside the body still has a body, shorter than the one that was sent
(`bodyText_of_part`). If that part is an acceptable save by itself (`PartAccepted`), it is stored
(`exists_part_of_stores`, `stores_of_partAccepted`), and the rest of the request is lost. A first
read that ends before the blank line has no body, and is refused.

So what is stored comes from the whole body exactly when one read delivers everything, or the part
that the first one delivers is not acceptable (`save_is_whole_iff`). A form of which every beginning
is refused is safe, but the usual one is not: its pairs are checked one by one, and it may be
cut between two of them (`save_of_cut_body`).
-/

namespace Jzf407

open Foundation

/-! ### Requests as bytes -/

/-- A `POST /save` request: what precedes its first blank line, and its body. A head that is
not text makes the last condition void, and its request is refused in any case. -/
structure SaveRequest where
  head : List UInt8
  body : List UInt8
  blank_first : ∀ x y, head ++ (asBytes blankLine ++ body) = x ++ (asBytes blankLine ++ y) →
    head.length ≤ x.length
  isSave : ∀ h, asBytes h = head → (ParsedRequest.new (h ++ blankLine)).is "POST" "/save" = true

/-- The bytes of the request. -/
def SaveRequest.bytes (q : SaveRequest) : List UInt8 := q.head ++ (asBytes blankLine ++ q.body)

/-- The successive reads that deliver some bytes: none is empty or exceeds the buffer. -/
structure Segmentation (bytes : List UInt8) where
  reads : List (List UInt8)
  flatten_reads : reads.flatten = bytes
  length_pos : ∀ r ∈ reads, 0 < r.length
  length_le : ∀ r ∈ reads, r.length ≤ reqBufLen

/-- The server stores `c` for a connection that delivers `reads`. -/
def Stores (pool : Pool) (st : WebState) (t : Readings) (reads : List (List UInt8))
    (c : NetworkConfig) : Prop :=
  ∃ st', serveConnection pool st t reads = .ok (some (.routed (.save (some c))), st')

/-- The bytes are by themselves an acceptable save: the head of `q`, the blank line, and a
text that the form parser accepts, from a client that is admitted. -/
def PartAccepted (pool : Pool) (st : WebState) (t : Readings) (q : SaveRequest)
    (bytes : List UInt8) : Prop :=
  ∃ h text, asBytes h = q.head ∧ bytes = asBytes (h ++ (blankLine ++ text)) ∧
    (admission pool st t (h ++ (blankLine ++ text))).1 = true ∧
    (parseForm text pool.cfg).isSome = true

/-! ### The first line and the body -/

/-- The first line does not depend on what follows the blank line. -/
theorem is_append_blankLine (h text : Str) (method path : String) :
    (ParsedRequest.new (h ++ (blankLine ++ text))).is method path =
      (ParsedRequest.new (h ++ blankLine)).is method path := by
  have hline : (lines (h ++ (blankLine ++ text))).head? = (lines (h ++ blankLine)).head? := by
    have := head?_lines_append_newline (h ++ ['\r']) ("\r\n".toList ++ text) "\r\n".toList
    simpa [blankLine] using this
  unfold ParsedRequest.is ParsedRequest.new
  rw [hline]

/-- The body of a received part of a save request is what it contains of the body. -/
theorem bodyText_of_part {q : SaveRequest} {h text : Str} {rest : List UInt8}
    (hhead : asBytes h = q.head) (hrest : asBytes text ++ rest = q.body) :
    (ParsedRequest.new (h ++ (blankLine ++ text))).bodyText = some text := by
  obtain ⟨n, hle, hfind⟩ := exists_find_le h blankLine text
  obtain ⟨pre, post, hsplit, rfl⟩ := exists_of_find_eq_some hfind
  have hn : byteLen pre = byteLen h := by
    refine Nat.le_antisymm hle ?_
    have hbytes : q.head ++ (asBytes blankLine ++ q.body) =
        asBytes pre ++ (asBytes blankLine ++ (asBytes post ++ rest)) := by
      have := congrArg (fun s => asBytes s ++ rest) hsplit
      simpa [hhead, hrest] using this
    simpa [← hhead] using q.blank_first _ _ hbytes
  rw [hn] at hfind
  have hbody : (ParsedRequest.new (h ++ (blankLine ++ text))).body = .ok (some text) :=
    ParsedRequest.body_eq_ok_some rfl hfind
  rw [ParsedRequest.bodyText, hbody]

/-- **What a first read contains**: a body is seen only when the whole head and the blank line
have arrived, and then it is the part of the body that has arrived. -/
theorem exists_head_of_bodyText {q : SaveRequest} {s text : Str} {rest : List UInt8}
    (hs : asBytes s ++ rest = q.bytes) (hbody : (ParsedRequest.new s).bodyText = some text) :
    ∃ h, asBytes h = q.head ∧ s = h ++ (blankLine ++ text) ∧ asBytes text ++ rest = q.body := by
  -- a body was found, so the text contains a blank line
  obtain ⟨pre, post, rfl⟩ : ∃ pre post, s = pre ++ (blankLine ++ post) := by
    have hfound := (ParsedRequest.new s).body_eq_ok
    rw [hbody, ParsedRequest.body] at hfound
    cases hfind : find blankLine (ParsedRequest.new s).raw with
    | none =>
      rw [hfind] at hfound
      cases hfound
    | some n =>
      obtain ⟨pre, post, hsplit, -⟩ := exists_of_find_eq_some hfind
      exact ⟨pre, post, hsplit⟩
  -- the first blank line of the request is the one that ends its head
  have hle : q.head.length ≤ (asBytes pre).length := by
    refine q.blank_first (asBytes pre) (asBytes post ++ rest) ?_
    rw [← SaveRequest.bytes, ← hs]
    simp
  obtain ⟨y, hy⟩ : ∃ y, asBytes (pre ++ (blankLine ++ post)) =
      q.head ++ (asBytes blankLine ++ y) := by
    have hpre : q.head ++ asBytes blankLine <+: asBytes (pre ++ (blankLine ++ post)) := by
      have hhead : q.head ++ asBytes blankLine <+: q.bytes := by
        rw [SaveRequest.bytes, ← List.append_assoc]
        exact List.prefix_append _ _
      have hpart : asBytes (pre ++ (blankLine ++ post)) <+: q.bytes := by
        rw [← hs]
        exact List.prefix_append _ _
      refine List.prefix_of_prefix_length_le hhead hpart ?_
      simp only [asBytes_append, List.length_append]
      omega
    obtain ⟨y, hy⟩ := hpre
    exact ⟨y, by rw [← hy, List.append_assoc]⟩
  obtain ⟨h, t, hsplit, hh, ht⟩ := exists_append_of_asBytes_append (by decide) hy
  have hrest : asBytes t ++ rest = q.body := by
    rw [hy, SaveRequest.bytes, List.append_assoc, List.append_assoc,
      List.append_cancel_left_eq, List.append_cancel_left_eq] at hs
    rw [ht, hs]
  refine ⟨h, hh, ?_, ?_⟩
  · rw [hsplit, bodyText_of_part hh hrest] at hbody
    rw [hsplit, Option.some.inj hbody]
  · rw [hsplit, bodyText_of_part hh hrest] at hbody
    rwa [← Option.some.inj hbody]

/-! ### What is stored -/

theorem routeOf_eq_save_iff {cfg c : NetworkConfig} {request : ParsedRequest} :
    routeOf cfg request = .save (some c) ↔
      request.is "POST" "/save" = true ∧
        ∃ text, request.bodyText = some text ∧ parseForm text cfg = some c := by
  rw [← Option.bind_eq_some_iff]
  constructor
  · intro h
    unfold routeOf at h
    by_cases hsave : request.is "POST" "/save" = true
    · rw [if_pos hsave] at h
      repeat' split at h
      all_goals first
        | cases h
        | exact ⟨hsave, Route.save.inj h⟩
    · rw [if_neg hsave] at h
      repeat' split at h
      all_goals cases h
  · rintro ⟨hsave, hstored⟩
    obtain ⟨hm, hp⟩ : request.method = "POST".toList ∧ request.path = "/save".toList := by
      simpa [ParsedRequest.is] using hsave
    simp [routeOf, ParsedRequest.is, hm, hp, hstored]

section Stored

variable {pool : Pool} {st : WebState} {t : Readings} {q : SaveRequest}
  {first : List UInt8} {later : List (List UInt8)} {c : NetworkConfig}

/-- What is stored is the configuration of the received part. -/
theorem exists_part_of_stores {rest : List UInt8} (hfirst : first ++ rest = q.bytes)
    (h : Stores pool st t (first :: later) c) :
    ∃ hd text, asBytes hd = q.head ∧ first = asBytes (hd ++ (blankLine ++ text)) ∧
      (admission pool st t (hd ++ (blankLine ++ text))).1 = true ∧
      parseForm text pool.cfg = some c ∧ asBytes text ++ rest = q.body := by
  obtain ⟨st', hserve⟩ := h
  rw [serveConnection] at hserve
  split at hserve
  · cases hserve
  · obtain ⟨⟨reply, st₁⟩, hreq, hserve⟩ := bind_eq_ok_iff.mp hserve
    obtain ⟨rfl, rfl⟩ : reply = .routed (.save (some c)) ∧ st₁ = st' := by simpa using hserve
    cases served_of_serveRequest hreq with
    | undecodable hbuf hreply hst => cases hreply
    | @accepted s hbuf st₂ hadmitted hreply hst =>
      obtain ⟨-, text, hbody, hstored⟩ := routeOf_eq_save_iff.mp (Reply.routed.inj hreply).symm
      obtain rfl := fromUtf8_eq_some_iff.mp hbuf
      obtain ⟨hd, hhd, rfl, hrest⟩ := exists_head_of_bodyText hfirst hbody
      exact ⟨hd, text, hhd, rfl, by rw [hadmitted], hstored, hrest⟩
    | loginPost hbuf hadmitted hlogin hattempt =>
      exact absurd hattempt not_routed_of_loginAttempt
    | turnedAway hbuf hadmitted hreply hst => simp at hreply

/-- An acceptable part is stored. -/
theorem stores_of_partAccepted (hne : 0 < first.length) {rest : List UInt8}
    (hfirst : first ++ rest = q.bytes) (h : PartAccepted pool st t q first) :
    ∃ c, Stores pool st t (first :: later) c := by
  obtain ⟨hd, text, hhd, rfl, hadmitted, hsome⟩ := h
  obtain ⟨c, hc⟩ := Option.isSome_iff_exists.mp hsome
  have hrest : asBytes text ++ rest = q.body := by
    rw [SaveRequest.bytes, ← hhd] at hfirst
    simpa using hfirst
  have hroute : routeOf pool.cfg (ParsedRequest.new (hd ++ (blankLine ++ text))) =
      .save (some c) :=
    routeOf_eq_save_iff.mpr ⟨by rw [is_append_blankLine, q.isSave hd hhd], text,
      bodyText_of_part hhd hrest, hc⟩
  have hserve := serveRequest_of_admission (t := t) (fromUtf8_asBytes (hd ++ (blankLine ++ text)))
    (Prod.ext hadmitted rfl : admission pool st t _ = (true, (admission pool st t _).2))
  have hbuf : (asBytes (hd ++ (blankLine ++ text))).isEmpty = false := by
    rw [List.isEmpty_eq_false_iff]
    exact List.ne_nil_of_length_pos hne
  refine ⟨c, afterRoute pool.cfg (admission pool st t (hd ++ (blankLine ++ text))).2
    (ParsedRequest.new (hd ++ (blankLine ++ text))), ?_⟩
  rw [serveConnection, hbuf, hserve, hroute]
  rfl

end Stored

/-- **When only whole requests are saved**: what is stored comes from the whole body exactly
when one read delivers the request, or the part that the first read delivers is not by itself
an acceptable save. -/
theorem save_is_whole_iff (pool : Pool) (st : WebState) (t : Readings) (q : SaveRequest)
    (seg : Segmentation q.bytes) :
    (∀ c, Stores pool st t seg.reads c →
        seg.reads.length = 1 ∧ ∃ text, asBytes text = q.body ∧ parseForm text pool.cfg = some c) ↔
      seg.reads.length = 1 ∨ ∀ first ∈ seg.reads.head?, ¬ PartAccepted pool st t q first := by
  obtain ⟨reads, hflat, hpos, hle⟩ := seg
  dsimp only
  cases reads with
  | nil => simp [Stores, serveConnection]
  | cons first later =>
    have hfirst : first ++ later.flatten = q.bytes := by rw [← hflat, List.flatten_cons]
    simp only [List.head?_cons, Option.mem_def, Option.some.injEq, forall_eq']
    constructor
    · intro hwhole
      by_cases hpart : PartAccepted pool st t q first
      · obtain ⟨c, hc⟩ : ∃ c, Stores pool st t (first :: later) c :=
          stores_of_partAccepted (hpos first List.mem_cons_self) hfirst hpart
        exact .inl (hwhole c hc).1
      · exact .inr hpart
    · intro hcond c hc
      obtain ⟨hd, text, hhd, htext, hadmitted, hstored, hrest⟩ := exists_part_of_stores hfirst hc
      obtain hone | hpart := hcond
      · obtain rfl : later = [] := by simpa using hone
        exact ⟨hone, text, by simpa using hrest, hstored⟩
      · exact absurd ⟨hd, text, hhd, htext, hadmitted, by rw [hstored]; rfl⟩ hpart

/-! ### A cut inside a body -/

/-- Without a carriage return in the head, the first blank line is the one that ends it. -/
theorem blank_first_of_notMem {head body : List UInt8} (hcr : (13 : UInt8) ∉ head)
    (x y : List UInt8) (h : head ++ (asBytes blankLine ++ body) = x ++ (asBytes blankLine ++ y)) :
    head.length ≤ x.length := by
  by_contra hlt
  have hget := congrArg (fun l : List UInt8 => l[x.length]?) h
  simp only [List.getElem?_append_left (Nat.not_le.mp hlt), List.getElem?_append_right le_rfl,
    Nat.sub_self] at hget
  exact hcr (List.mem_of_getElem? (hget.trans rfl))

/-- The request that sets the address to 10.0.0.5 and the gateway to 10.0.0.1. -/
def moveRequest : SaveRequest where
  head := asBytes "POST /save HTTP/1.1".toList
  body := asBytes "ip=10.0.0.5&gw=10.0.0.1".toList
  blank_first := blank_first_of_notMem (by decide)
  isSave := by
    intro h hh
    rw [asBytes_injective hh]
    decide +kernel

/-- A segmentation that cuts the body of `moveRequest` between its two fields. -/
def moveCut : Segmentation moveRequest.bytes where
  reads := [asBytes "POST /save HTTP/1.1\r\n\r\nip=10.0.0.5".toList,
    asBytes "&gw=10.0.0.1".toList]
  flatten_reads := by decide +kernel
  length_pos := by decide +kernel
  length_le := by decide +kernel

/-- Cut between its fields, the request stores the new address with the old gateway. -/
theorem save_of_cut_body :
    ¬ ∀ (pool : Pool) (st : WebState) (t : Readings) (q : SaveRequest)
      (seg : Segmentation q.bytes) (c : NetworkConfig), Stores pool st t seg.reads c →
        seg.reads.length = 1 ∧
          ∃ text, asBytes text = q.body ∧ parseForm text pool.cfg = some c := by
  intro h
  let pool := Pool.start NetworkConfig.default 0
  let first := asBytes "POST /save HTTP/1.1\r\n\r\nip=10.0.0.5".toList
  let rest := asBytes "&gw=10.0.0.1".toList
  have hbytes : first ++ rest = moveRequest.bytes := by decide +kernel
  have hpart : PartAccepted pool WebState.boot (Readings.at 1) moveRequest first :=
    ⟨"POST /save HTTP/1.1".toList, "ip=10.0.0.5".toList, rfl, by decide +kernel, rfl,
      by decide +kernel⟩
  obtain ⟨c, hc⟩ : ∃ c, Stores pool WebState.boot (Readings.at 1) [first, rest] c :=
    stores_of_partAccepted (by decide +kernel) hbytes hpart
  exact absurd (h _ _ _ moveRequest moveCut c hc).1 (by decide)

end Jzf407
