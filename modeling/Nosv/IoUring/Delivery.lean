import Nosv.IoUring.Drain

/-!
# Delivery

What `NextCompletion` and `NextCancellation` return. The results of a stream are a transcript: the
completions in the order they were dispatched, one error if the buffer overflowed, and `None` from
then on. The buffer holds what was dispatched and not yet returned.

* `delivery_in_order`: what streams and cancellations return in a run without shutdown;
* `none_proves_retirement`: `None` without an error proves every original terminal, in a run that
  detaches no live stream (`SparesStreams`);
* `none_before_retirement`: a detached stream returns `None` earlier.
-/

namespace Nosv.IoUring

variable {cfg : PreparedRing} {ok : State → Action → Prop} {σ τ : State} {s : SubId} {a : Action}

/-! ## Transcripts -/

/-- The completions among the results of a stream. -/
def oks (rs : List NextResult) : List Completion :=
  rs.filterMap fun r => r.bind Except.toOption

@[simp]
theorem oks_nil : oks [] = [] := rfl

@[simp]
theorem oks_append (rs : List NextResult) (r : NextResult) :
    oks (rs ++ [r]) = oks rs ++ (r.bind Except.toOption).toList := by
  simp only [oks, List.filterMap_append, List.append_cancel_left_eq]
  cases h : r.bind Except.toOption <;> simp [h]

/-- A completion that was returned is among the results. -/
theorem mem_oks {rs : List NextResult} {c : Completion} :
    c ∈ oks rs ↔ some (.ok c) ∈ rs := by
  simp only [oks, List.mem_filterMap, Option.bind_eq_some_iff]
  constructor
  · rintro ⟨r, hr, e, rfl, he⟩
    cases e with
    | error => cases he
    | ok c' => rwa [← Option.some.inj he]
  · exact fun h => ⟨_, h, _, rfl, rfl⟩

/-- The results of a stream: completions, perhaps the error, and some `None`s. -/
def transcript (cs : List Completion) (overflowed : Bool) (n : ℕ) : List NextResult :=
  cs.map (fun c => some (.ok c)) ++
    ((if overflowed then [some (.error .bufferOverflow)] else []) ++ List.replicate n none)

@[simp]
theorem oks_transcript (cs : List Completion) (b : Bool) (n : ℕ) :
    oks (transcript cs b n) = cs := by
  have hcs : cs.filterMap ((fun r : NextResult => r.bind Except.toOption) ∘
      fun c => some (.ok c)) = cs := List.filterMap_some
  simp only [oks, transcript, List.filterMap_append, List.filterMap_map, hcs]
  cases b <;> simp [Except.toOption]

/-- One more completion. -/
theorem transcript_ok (cs : List Completion) (c : Completion) :
    transcript cs false 0 ++ [some (.ok c)] = transcript (cs ++ [c]) false 0 := by
  simp [transcript]

/-- The error. -/
theorem transcript_error (cs : List Completion) :
    transcript cs false 0 ++ [some (.error .bufferOverflow)] = transcript cs true 0 := by
  simp [transcript]

/-- One more `None`. -/
theorem transcript_none (cs : List Completion) (b : Bool) (n : ℕ) :
    transcript cs b n ++ [none] = transcript cs b (n + 1) := by
  simp [transcript, List.replicate_succ']

/-- A transcript has the error exactly if it is said to. -/
theorem error_mem_transcript {cs : List Completion} {b : Bool} {n : ℕ} {e : CompletionError} :
    some (.error e) ∈ transcript cs b n ↔ b = true := by
  cases e
  cases b <;> simp [transcript]

/-- A transcript has ended exactly if it has a `None`. -/
theorem none_mem_transcript {cs : List Completion} {b : Bool} {n : ℕ} :
    none ∈ transcript cs b n ↔ 0 < n := by
  cases b <;> simp [transcript, Nat.pos_iff_ne_zero]

/-- The `n`th result of a stream that overflowed after the completions `cs`. -/
def overflowScript (cs : List Completion) (n : ℕ) : NextResult :=
  if h : n < cs.length then some (.ok cs[n])
  else if n = cs.length then some (.error .bufferOverflow)
  else none

/-- Before the overflow is reported the results follow the script. -/
theorem transcript_script (cs rest : List Completion) :
    transcript cs false 0 = (List.range cs.length).map (overflowScript (cs ++ rest)) := by
  refine List.ext_getElem (by simp [transcript]) fun i h1 h2 => ?_
  have hi : i < cs.length := by simpa using h2
  have hi' : i < (cs ++ rest).length := by
    rw [List.length_append]
    omega
  simp only [transcript, Bool.false_eq_true, if_false, List.replicate_zero, List.append_nil,
    List.getElem_map, List.getElem_range, overflowScript, dif_pos hi', List.getElem_append_left hi]

/-- Once the overflow is reported the results follow the script. -/
theorem transcript_script_reported (cs : List Completion) (n : ℕ) :
    transcript cs true n = (List.range (cs.length + (n + 1))).map (overflowScript cs) := by
  refine List.ext_getElem (by simp [transcript]) fun i h1 h2 => ?_
  simp only [List.getElem_map, List.getElem_range, overflowScript]
  rcases Nat.lt_trichotomy i cs.length with hi | rfl | hi
  · simp [transcript, hi]
  · simp [transcript]
  · rw [dif_neg (Nat.not_lt_of_gt hi), if_neg (Nat.ne_of_gt hi)]
    have hmap : (cs.map fun c => (some (.ok c) : NextResult)).length ≤ i := by
      simpa using Nat.le_of_lt hi
    have hpos : i - cs.length ≠ 0 := by omega
    simp [transcript, List.getElem_append_right hmap, List.getElem_cons, hpos]

/-! ## What is buffered -/

namespace View

/-- The buffers hold what was dispatched and not yet returned, within the limit. -/
structure Buffered (x : View) : Prop where
  normal_le : x.inner.normal.length ≤ x.limit
  cancellations_le : x.inner.cancellations.length ≤ x.limit
  detached : x.inner.delivery = .detached → x.inner.normal = [] ∧ x.inner.cancellations = []
  /-- While delivery is open nothing is lost. -/
  opened : x.inner.delivery = .opened → x.inner.normalOverflow = false ∧
    oks x.history.received ++ x.inner.normal = x.history.dispatched
  /-- What is returned or buffered came first. -/
  normal : oks x.history.received ++ x.inner.normal <+: x.history.dispatched
  cancellations :
    (oks x.history.cancelReceived ++ x.inner.cancellations).Sublist x.history.cancelled

variable {x y : View}

/-- A step that leaves the buffers, the results and the delivery mode alone. -/
theorem Buffered.frame (h : x.Buffered) (hlimit : y.limit = x.limit)
    (hnormal : y.inner.normal = x.inner.normal)
    (hcancellations : y.inner.cancellations = x.inner.cancellations)
    (hdelivery : y.inner.delivery = x.inner.delivery)
    (hoverflow : y.inner.normalOverflow = x.inner.normalOverflow)
    (hreceived : y.history.received = x.history.received)
    (hcancelReceived : y.history.cancelReceived = x.history.cancelReceived)
    (hdispatched : y.history.dispatched = x.history.dispatched)
    (hcancelled : y.history.cancelled = x.history.cancelled) : y.Buffered := by
  obtain ⟨h1, h2, h3, h4, h5, h6⟩ := h
  constructor
  · rwa [hnormal, hlimit]
  · rwa [hcancellations, hlimit]
  · rwa [hdelivery, hnormal, hcancellations]
  · rwa [hdelivery, hoverflow, hreceived, hnormal, hdispatched]
  · rwa [hreceived, hnormal, hdispatched]
  · rwa [hcancelReceived, hcancellations, hcancelled]

/-- Closing delivery keeps or discards what is buffered. -/
theorem Buffered.close (h : x.Buffered) (d : Delivery) (hd : d ≠ .opened)
    (hinner : y.inner = closeDelivery d x.inner) (hlimit : y.limit = x.limit)
    (hhistory : y.history = x.history) : y.Buffered := by
  rw [closeDelivery_eq] at hinner
  -- Detaching empties both buffers; closing otherwise leaves them to the consumers.
  by_cases hdet : d = .detached
  · simp only [hdet, or_true, if_true] at hinner
    constructor
    · simp [hinner]
    · simp [hinner]
    · simp [hinner]
    · simp [hinner]
    · rw [hinner, hhistory]
      exact (List.append_nil _).symm ▸ (List.prefix_append ..).trans h.normal
    · rw [hinner, hhistory]
      exact (List.append_nil _).symm ▸ (List.sublist_append_left ..).trans h.cancellations
  · simp only [hdet, or_false, if_false] at hinner
    constructor
    · rw [hinner, hlimit]
      exact h.normal_le
    · rw [hinner, hlimit]
      exact h.cancellations_le
    · rw [hinner]
      intro hy
      split_ifs at hy with ho
      · exact absurd hy hdet
      · exact h.detached hy
    · rw [hinner, hhistory]
      intro hy
      split_ifs at hy with ho
      · exact absurd hy hd
      · exact absurd hy ho
    · rw [hinner, hhistory]
      exact h.normal
    · rw [hinner, hhistory]
      exact h.cancellations

/-- A step that leaves what the mutex protects alone, and the results. -/
theorem Buffered.same (h : x.Buffered) (hinner : y.inner = x.inner) (hlimit : y.limit = x.limit)
    (hreceived : y.history.received = x.history.received)
    (hcancelReceived : y.history.cancelReceived = x.history.cancelReceived)
    (hdispatched : y.history.dispatched = x.history.dispatched)
    (hcancelled : y.history.cancelled = x.history.cancelled) : y.Buffered :=
  h.frame hlimit (by rw [hinner]) (by rw [hinner]) (by rw [hinner]) (by rw [hinner]) hreceived
    hcancelReceived hdispatched hcancelled

/-- What a stream returns comes out of its buffer. -/
theorem Buffered.nextReady (h : x.Buffered) {w : Waker} {r : NextResult} {st : SubmissionInner}
    {c : Client} (hnext : nextCompletion w x.inner = (.ready r, st)) :
    Buffered { x with
      inner := st
      client := c
      history := { x.history with received := x.history.received ++ [r] } } := by
  -- A CQE leaves the buffer, the overflow is reported, or there is nothing to wait for.
  rcases nextCompletion_ready hnext with ⟨c, rest, hn, rfl, rfl⟩ | ⟨hn, ho, rfl, rfl⟩ |
    ⟨hn, ho, rfl, rfl, -⟩
  · have happend : oks (x.history.received ++ [some (.ok c)]) ++ rest =
        oks x.history.received ++ x.inner.normal := by
      simp [hn, Except.toOption]
    constructor
    · have := h.normal_le
      rw [hn, List.length_cons] at this
      exact Nat.le_of_succ_le this
    · exact h.cancellations_le
    · intro hd
      rw [(h.detached hd).1] at hn
      cases hn
    · intro hd
      rw [happend]
      exact h.opened hd
    · rw [happend]
      exact h.normal
    · exact h.cancellations
  · constructor
    · exact h.normal_le
    · exact h.cancellations_le
    · exact h.detached
    · intro hd
      rw [(h.opened hd).1] at ho
      cases ho
    · simpa [Except.toOption] using h.normal
    · exact h.cancellations
  · constructor
    · exact h.normal_le
    · exact h.cancellations_le
    · exact h.detached
    · simpa using h.opened
    · simpa using h.normal
    · exact h.cancellations

/-- What a cancellation returns comes out of its buffer. -/
theorem Buffered.cancellationReady (h : x.Buffered) {w : Waker} {r : NextResult}
    {st : SubmissionInner} {c : Client} (hnext : nextCancellation w x.inner = (.ready r, st)) :
    Buffered { x with
      inner := st
      client := c
      history := { x.history with cancelReceived := x.history.cancelReceived ++ [r] } } := by
  rcases nextCancellation_ready hnext with ⟨c, rest, hn, rfl, rfl⟩ | ⟨hn, ho, rfl, rfl⟩ |
    ⟨hn, ho, rfl, rfl, -⟩
  · constructor
    · exact h.normal_le
    · have := h.cancellations_le
      rw [hn, List.length_cons] at this
      exact Nat.le_of_succ_le this
    · intro hd
      rw [(h.detached hd).2] at hn
      cases hn
    · exact h.opened
    · exact h.normal
    · have := h.cancellations
      simpa [hn, Except.toOption] using this
  · exact ⟨h.normal_le, h.cancellations_le, h.detached, h.opened, h.normal,
      by simpa [Except.toOption] using h.cancellations⟩
  · exact ⟨h.normal_le, h.cancellations_le, h.detached, h.opened, h.normal,
      by simpa using h.cancellations⟩

/-- A CQE of an original is buffered, or closes delivery. -/
theorem Buffered.original (h : x.Buffered) (c : Completion) (m full : Bool) (ws : List Waker) :
    Buffered { x with
      inner := (dispatchOriginal x.limit c m (x.inner, [])).1.1
      woken := ws
      history := x.history.dispatch full c } := by
  rw [dispatchOriginal_inner]
  have hprefix : oks x.history.received ++ x.inner.normal <+: x.history.dispatched ++ [c] :=
    h.normal.trans (List.prefix_append ..)
  -- With room the CQE goes to the buffer; without it delivery overflows, if it was open.
  by_cases hb : buffers x.limit x.inner = true
  · obtain ⟨hopen, hlt⟩ : x.inner.delivery = .opened ∧ x.inner.normal.length < x.limit := by
      simpa [buffers] using hb
    have hover : overflows x.limit x.inner = false := by simp [overflows, hlt]
    obtain ⟨hcalm, heq⟩ := h.opened hopen
    simp only [hb, hover, if_true, Bool.false_and, Bool.false_eq_true, if_false, Bool.or_false]
    constructor
    · simpa using Nat.succ_le_of_lt hlt
    · exact h.cancellations_le
    · intro hd
      rw [hopen] at hd
      cases hd
    · exact fun _ => ⟨hcalm, by simp only [History.dispatch, ← List.append_assoc, heq]⟩
    · simp only [History.dispatch, ← List.append_assoc, heq]
      exact List.prefix_refl _
    · exact h.cancellations
  · simp only [hb, Bool.false_eq_true, if_false]
    constructor
    · exact h.normal_le
    · exact h.cancellations_le
    · intro hd
      dsimp only at hd
      split_ifs at hd
      exact h.detached hd
    · -- Delivery that stays open had room for the CQE.
      intro hd
      dsimp only at hd
      split_ifs at hd with ho
      obtain ⟨hcalm, -⟩ := h.opened hd
      simp [buffers, overflows, hd, hcalm] at hb ho
      omega
    · exact hprefix
    · exact h.cancellations

/-- The CQE of a cancellation is buffered, or dropped. -/
theorem Buffered.cancel (h : x.Buffered) (c : Completion) (ws : List Waker) :
    Buffered { x with
      inner := (dispatchCancel x.limit c (x.inner, [])).1
      woken := ws
      history := { x.history with cancelled := x.history.cancelled ++ [c] } } := by
  rw [dispatchCancel_inner]
  by_cases hb : x.inner.delivery ≠ .detached ∧ x.inner.cancellations.length < x.limit
  · rw [if_pos hb]
    constructor
    · exact h.normal_le
    · simpa using Nat.succ_le_of_lt hb.2
    · exact fun hd => absurd hd hb.1
    · exact h.opened
    · exact h.normal
    · rw [← List.append_assoc]
      exact h.cancellations.append (List.Sublist.refl _)
  · rw [if_neg hb]
    exact ⟨h.normal_le, h.cancellations_le, h.detached, h.opened, h.normal,
      h.cancellations.trans (List.sublist_append_left ..)⟩

/-- Every step of its caller or another thread keeps the buffers of a submission in order. -/
theorem Buffered.step (h : x.Buffered) (hf : x.client.Fits s x.call x.admits)
    (hs : x.Step s a y) : y.Buffered := by
  cases hs
  case other hinner hlimit _ _ hhistory _ _ _ =>
    exact h.same hinner hlimit (by rw [hhistory]) (by rw [hhistory]) (by rw [hhistory])
      (by rw [hhistory])
  case opened c hrole =>
    cases c with
    | false => exact h.same rfl rfl rfl rfl rfl rfl
    | true =>
      simp only [if_true]
      refine ⟨h.normal_le, h.cancellations_le, fun hd => ?_, fun hd => ?_, h.normal,
        h.cancellations⟩
      · cases hd
      · cases hd
  case nextReady hnext => exact h.nextReady hnext
  case nextPending hnext =>
    obtain ⟨-, -, -, -, rfl⟩ := nextCompletion_pending hnext
    exact h.frame rfl rfl rfl rfl rfl rfl rfl rfl rfl
  case cancellationReady hnext => exact h.cancellationReady hnext
  case cancellationPending hnext =>
    obtain ⟨-, -, -, rfl⟩ := nextCancellation_pending hnext
    exact h.frame rfl rfl rfl rfl rfl rfl rfl rfl rfl
  case dropCancellation =>
    refine h.close .detached (by simp) ?_ rfl rfl
    rw [closeDelivery_eq]
    simp [detach]
  case close d hx =>
    exact h.close d (hx ▸ hf).delivery_ne rfl rfl rfl
  case ownerClose => exact h.close .detached (by simp) rfl rfl rfl
  case wakeAdmission =>
    rw [wakeUnfinished_eq]
    exact h.frame rfl rfl rfl rfl rfl rfl rfl rfl rfl
  case original c m _ => exact h.original c m _ _
  case cancel c _ => exact h.cancel c _
  all_goals exact h.frame rfl rfl rfl rfl rfl rfl rfl rfl rfl

end View

/-- The buffers are in order in every reachable state. -/
theorem View.Buffered.of_reachable (h : Reachable cfg ok σ) (s : SubId) : (σ.view s).Buffered := by
  refine h.view_inv (I := fun _ x => x.Buffered) (fun t => ?_) ?_ s
  · constructor <;> simp [State.view, State.init, SubmissionState.new, History.new]
  · exact fun hfits _ hI _ hs => hI.step hfits hs

/-! ## What a stream returns -/

namespace View

/-- What a live stream has returned, by what became of its delivery. -/
inductive Streams (x : View) : Prop
  /-- Everything dispatched is returned or buffered. -/
  | opened {c : List Completion} {n : ℕ} (hdelivery : x.inner.delivery = .opened)
      (hfull : x.history.full = none) (hreceived : x.history.received = transcript c false n)
      (hend : 0 < n → x.inner.normal = [] ∧ x.inner.originalTerminal = x.inner.originals)
  /-- The completions before the one that found the buffer full are being returned. -/
  | overflowed {c : List Completion} {k : ℕ} (hdelivery : x.inner.delivery = .overflow)
      (hfull : x.history.full = some k) (hk : k ≤ x.history.dispatched.length)
      (htake : c ++ x.inner.normal = x.history.dispatched.take k)
      (hover : x.inner.normalOverflow = true)
      (hreceived : x.history.received = transcript c false 0)
  /-- The overflow has been reported. -/
  | reported {k n : ℕ} (hdelivery : x.inner.delivery = .overflow) (hfull : x.history.full = some k)
      (hk : k ≤ x.history.dispatched.length) (hover : x.inner.normalOverflow = false)
      (hnormal : x.inner.normal = [])
      (hreceived : x.history.received = transcript (x.history.dispatched.take k) true n)
  /-- Shutdown detached the stream when there was nothing to wait for. -/
  | retired (hdelivery : x.inner.delivery = .detached)
      (hretired : x.inner.originalTerminal = x.inner.originals)

/-- The results of the stream of a submission, once it has one. -/
structure Streaming (x : View) : Prop where
  early :
    x.client.role = .unborn ∨ x.client.role = .created ∨ (∃ fut, x.client.role = .submit fut) →
    x.history.received = []
  full : x.inner.delivery = .opened → x.history.full = none
  stream : x.client.role = .stream → x.inner.iteratorFinished = true ∧ x.Streams

variable {x y : View}

/-- A step that leaves everything a stream depends on alone. -/
theorem Streams.frame (h : x.Streams) (hdelivery : y.inner.delivery = x.inner.delivery)
    (hnormal : y.inner.normal = x.inner.normal)
    (hoverflow : y.inner.normalOverflow = x.inner.normalOverflow)
    (horiginals : y.inner.originals = x.inner.originals)
    (hterminal : y.inner.originalTerminal = x.inner.originalTerminal)
    (hreceived : y.history.received = x.history.received)
    (hfull : y.history.full = x.history.full)
    (hdispatched : y.history.dispatched = x.history.dispatched) : y.Streams := by
  cases h with
  | opened hd hf hr he =>
    exact .opened (hdelivery.trans hd) (hfull.trans hf) (hreceived.trans hr)
      (by rwa [hnormal, horiginals, hterminal])
  | overflowed hd hf hk ht ho hr =>
    exact .overflowed (hdelivery.trans hd) (hfull.trans hf) (by rwa [hdispatched])
      (by rwa [hnormal, hdispatched]) (hoverflow.trans ho) (hreceived.trans hr)
  | reported hd hf hk ho hn hr =>
    exact .reported (hdelivery.trans hd) (hfull.trans hf) (by rwa [hdispatched])
      (hoverflow.trans ho) (hnormal.trans hn) (by rw [hreceived, hdispatched, hr])
  | retired hd hr => exact .retired (hdelivery.trans hd) (by rw [hterminal, horiginals, hr])

/-- A step after which the submission is as before to its stream. -/
theorem Streaming.frame (h : x.Streaming) (hrole : y.client.role = x.client.role)
    (hfinished : y.inner.iteratorFinished = x.inner.iteratorFinished)
    (hdelivery : y.inner.delivery = x.inner.delivery)
    (hnormal : y.inner.normal = x.inner.normal)
    (hoverflow : y.inner.normalOverflow = x.inner.normalOverflow)
    (horiginals : y.inner.originals = x.inner.originals)
    (hterminal : y.inner.originalTerminal = x.inner.originalTerminal)
    (hreceived : y.history.received = x.history.received)
    (hfull : y.history.full = x.history.full)
    (hdispatched : y.history.dispatched = x.history.dispatched) : y.Streaming where
  early := by
    rw [hrole, hreceived]
    exact h.early
  full := by
    rw [hdelivery, hfull]
    exact h.full
  stream := by
    rw [hrole, hfinished]
    intro hr
    obtain ⟨hfin, hstreams⟩ := h.stream hr
    exact ⟨hfin, hstreams.frame hdelivery hnormal hoverflow horiginals hterminal hreceived hfull
      hdispatched⟩

/-- A step that leaves the caller without a stream, and returned nothing. -/
theorem Streaming.none (hrole : y.client.role ≠ .stream)
    (hearly : y.client.role.closed = true ∨ y.history.received = [])
    (hfull : y.inner.delivery = .opened → y.history.full = none) : y.Streaming where
  early := by
    rintro hr
    rcases hearly with hc | hc
    · rcases hr with hr | hr | ⟨fut, hr⟩ <;> rw [hr] at hc <;> cases hc
    · exact hc
  full := hfull
  stream := fun hr => absurd hr hrole

/-- A poll of the stream that is ready adds to its transcript. -/
theorem Streams.nextReady (h : x.Streams) (hB : x.Buffered) {w : Waker} {r : NextResult}
    {st : SubmissionInner} {c : Client} (hnext : nextCompletion w x.inner = (.ready r, st)) :
    Streams { x with
      inner := st
      client := c
      history := { x.history with received := x.history.received ++ [r] } } := by
  rcases nextCompletion_ready hnext with ⟨c, rest, hn, rfl, rfl⟩ | ⟨hn, ho, rfl, rfl⟩ |
    ⟨hn, ho, rfl, rfl, hend⟩
  · -- A CQE: the stream has not come to an error, or not beyond what was buffered before it.
    cases h with
    | opened hd hf hr he =>
      rename_i cs n
      obtain rfl : n = 0 := by
        by_contra hne
        rw [(he (Nat.pos_of_ne_zero hne)).1] at hn
        cases hn
      exact .opened hd hf (by rw [hr, transcript_ok]) (fun h => absurd h (Nat.lt_irrefl 0))
    | overflowed hd hf hk ht hover hr =>
      rename_i cs k
      rw [hn] at ht
      exact .overflowed (c := cs ++ [c]) hd hf hk (by simpa using ht) hover
        (by rw [hr, transcript_ok])
    | reported hd hf hk hover hnormal hr =>
      rw [hnormal] at hn
      cases hn
    | retired hd hr => exact .retired hd hr
  · -- The overflow is reported once, after all that was buffered before it.
    cases h with
    | opened hd hf hr he =>
      rw [(hB.opened hd).1] at ho
      cases ho
    | overflowed hd hf hk ht hover hr =>
      rw [hn, List.append_nil] at ht
      exact .reported hd hf hk rfl hn (by rw [hr, ht, transcript_error])
    | reported hd hf hk hover hnormal hr =>
      rw [hover] at ho
      cases ho
    | retired hd hr => exact .retired hd hr
  · -- `None`: the originals are over, or the overflow has been reported.
    cases h with
    | opened hd hf hr he =>
      refine .opened hd hf (by rw [hr, transcript_none]) fun _ => ⟨hn, ?_⟩
      rcases hend with hne | ⟨-, hterminal⟩
      · exact absurd hd hne
      · exact hterminal
    | overflowed hd hf hk ht hover hr =>
      rw [hover] at ho
      cases ho
    | reported hd hf hk hover hnormal hr =>
      exact .reported hd hf hk hover hnormal (by rw [hr, transcript_none])
    | retired hd hr => exact .retired hd hr

/-- A CQE of an original is buffered, or is the first to find the buffer full, or comes too
late. -/
theorem Streams.original (h : x.Streams) (hB : x.Buffered)
    (hlive : x.inner.originalTerminal < x.inner.originals) (c : Completion) (m : Bool)
    (ws : List Waker) :
    Streams { x with
      inner := (dispatchOriginal x.limit c m (x.inner, [])).1.1
      woken := ws
      history := x.history.dispatch
        (x.inner.delivery = .opened ∧ x.limit ≤ x.inner.normal.length) c } := by
  rw [dispatchOriginal_inner]
  -- The last CQE of an original finds the stream open, overflowed or reported.
  cases h with
  | opened hd hf hr he =>
    rename_i cs n
    obtain rfl : n = 0 := by
      by_contra hne
      exact absurd (he (Nat.pos_of_ne_zero hne)).2 (Nat.ne_of_lt hlive)
    obtain ⟨hcalm, heq⟩ := hB.opened hd
    rw [hr, oks_transcript] at heq
    by_cases hlt : x.inner.normal.length < x.limit
    · refine .opened (c := cs) (n := 0) ?_ ?_ hr fun h => absurd h (Nat.lt_irrefl 0)
      · simp [overflows, hd, hlt]
      · simp [History.dispatch, hf, hlt]
    · have hle := Nat.le_of_not_lt hlt
      refine .overflowed (c := cs) (k := x.history.dispatched.length) ?_ ?_ ?_ ?_ ?_ hr
      · simp [overflows, hd, hle, hcalm]
      · simp [History.dispatch, hf, hd, hle]
      · simp [History.dispatch]
      · simpa [History.dispatch, buffers, hlt] using heq
      · simp [overflows, hd, hle]
  | overflowed hd hf hk ht hover hr =>
    rename_i cs k
    refine .overflowed (c := cs) (k := k) ?_ ?_ ?_ ?_ ?_ hr
    · simp [overflows, hd]
    · simp [History.dispatch, hf]
    · simpa [History.dispatch] using Nat.le_succ_of_le hk
    · simpa [History.dispatch, buffers, hd, List.take_append_of_le_length hk] using ht
    · simp [hover]
  | reported hd hf hk hover hnormal hr =>
    rename_i k n
    refine .reported (k := k) (n := n) ?_ ?_ ?_ ?_ ?_ ?_
    · simp [overflows, hd]
    · simp [History.dispatch, hf]
    · simpa [History.dispatch] using Nat.le_succ_of_le hk
    · simp [overflows, hd, hover]
    · simp [buffers, hd, hnormal]
    · simpa [History.dispatch, List.take_append_of_le_length hk] using hr
  | retired hd hr => exact absurd hr (Nat.ne_of_lt hlive)

/-- While shutdown spares live streams that are not over, a stream's results stay what they
should be. -/
theorem Streaming.step (h : x.Streaming) (hB : x.Buffered) (hf : x.client.Fits s x.call x.admits)
    (hspares : a = .close .owner → x.owner = some (.requestCancel .close s .detached) →
      x.client.role = .stream → x.inner.originalTerminal = x.inner.originals)
    (hs : x.Step s a y) : y.Streaming := by
  cases hs
  case other hinner _ hclient _ hhistory _ _ _ =>
    exact h.frame (by rw [hclient]) (by rw [hinner]) (by rw [hinner]) (by rw [hinner])
      (by rw [hinner]) (by rw [hinner]) (by rw [hinner]) (by rw [hhistory]) (by rw [hhistory])
      (by rw [hhistory])
  case register hrole => exact .none (by simp) (.inr (h.early (.inl hrole))) h.full
  case opened c hrole =>
    refine .none (by simp) (.inr (h.early (.inr (.inl hrole)))) ?_
    cases c with
    | false => exact h.full
    | true => exact fun hd => by cases hd
  case submitFailed | dropSubmit | cancelStream | dropStream =>
    exact .none (by simp) (.inl rfl) h.full
  -- Admission is over, so nothing was received and everything retained is dispatched.
  case submitOk fut hrole _ _ _ hopen hfin _ =>
    refine ⟨fun hr => by simp at hr, h.full, fun _ => ⟨hfin, ?_⟩⟩
    exact .opened (c := []) (n := 0) hopen (h.full hopen) (h.early (.inr (.inr ⟨fut, hrole⟩)))
      fun h => absurd h (Nat.lt_irrefl 0)
  case submitPending hrole _ _ _ _ _ =>
    exact h.frame hrole.symm rfl rfl rfl rfl rfl rfl rfl rfl rfl
  case nextReady w r st hrole hnext =>
    have hdelivery : st.delivery = x.inner.delivery := by
      simpa only [hnext] using nextCompletion_delivery w x.inner
    -- Receiving does not touch what admission has settled.
    have hfinished : st.iteratorFinished = x.inner.iteratorFinished := by
      rcases nextCompletion_ready hnext with ⟨c, rest, -, -, rfl⟩ | ⟨-, -, -, rfl⟩ |
        ⟨-, -, -, rfl, -⟩ <;> rfl
    obtain ⟨hfin, hstreams⟩ := h.stream hrole
    refine ⟨fun hr => ?_, fun hd => h.full (hdelivery ▸ hd), fun _ => ?_⟩
    · rw [show _ = Role.stream from hrole] at hr
      simp at hr
    · exact ⟨hfinished.trans hfin, hstreams.nextReady hB hnext⟩
  case nextPending hnext =>
    obtain ⟨-, -, -, -, rfl⟩ := nextCompletion_pending hnext
    exact h.frame rfl rfl rfl rfl rfl rfl rfl rfl rfl rfl
  case cancellationReady hrole _ hnext =>
    refine .none (by simp [hrole]) (.inl (by simp [hrole, Role.closed])) ?_
    rcases nextCancellation_ready hnext with ⟨c, rest, -, -, rfl⟩ | ⟨-, -, -, rfl⟩ |
      ⟨-, -, -, rfl, -⟩ <;> exact h.full
  case cancellationPending hrole _ hnext =>
    obtain ⟨-, -, -, rfl⟩ := nextCancellation_pending hnext
    exact h.frame rfl rfl rfl rfl rfl rfl rfl rfl rfl rfl
  case dropCancellation => exact .none (by simp) (.inl rfl) fun hd => by cases hd
  case close d hx =>
    -- A caller inside `request_cancel` has no stream.
    have hrole : x.client.role ≠ .stream := fun hr => by
      have := (hf.of_stream hr).2.1
      rw [hx] at this
      cases this
    refine ⟨h.early, fun hd => ?_, fun hr => absurd hr hrole⟩
    dsimp only at hd
    rw [closeDelivery_delivery] at hd
    split_ifs at hd
    · exact absurd hd (hx ▸ hf).delivery_ne
    · exact h.full hd
  case ownerClose howner =>
    rw [closeDelivery_eq]
    refine ⟨h.early, fun hd => by simp at hd, fun hr => ⟨(h.stream hr).1, ?_⟩⟩
    -- The owner may detach the stream, but only when it has nothing to deliver any more.
    exact .retired (by simp) (hspares rfl howner hr)
  case wakeAdmission =>
    rw [wakeUnfinished_eq]
    exact h.frame rfl rfl rfl rfl rfl rfl rfl rfl rfl rfl
  case iteratorSome fut _ _ hrole _ _ =>
    exact .none (by simp) (.inr (h.early (.inr (.inr ⟨fut, hrole⟩)))) h.full
  case iteratorNone fut _ hrole _ =>
    refine ⟨h.early, h.full, fun hr => ?_⟩
    rw [show _ = Role.submit fut from hrole] at hr
    cases hr
  case staged fut _ _ _ hrole _ =>
    exact .none (by simp) (.inr (h.early (.inr (.inr ⟨fut, hrole⟩)))) h.full
  case original c m hlive =>
    refine ⟨h.early, fun hd => ?_, fun hr => ⟨?_, (h.stream hr).2.original hB hlive c m _⟩⟩
    · -- Delivery stays open only if there was room for the CQE.
      rw [dispatchOriginal_inner] at hd
      dsimp only at hd
      split_ifs at hd with ho
      obtain ⟨hcalm, -⟩ := hB.opened hd
      simp only [overflows, hd, hcalm, true_and, Bool.not_false, Bool.and_true,
        decide_eq_true_eq] at ho
      simp [History.dispatch, h.full hd, ho]
    · rw [dispatchOriginal_inner]
      exact (h.stream hr).1
  case cancel c _ =>
    rw [dispatchCancel_inner]
    exact h.frame rfl rfl rfl rfl rfl rfl rfl rfl rfl rfl
  all_goals exact h.frame rfl rfl rfl rfl rfl rfl rfl rfl rfl rfl

end View

/-! ## The end of a stream -/

/-- Whether the owner thread is about to detach a live stream that is not over. -/
def State.abandons (σ : State) : Bool :=
  match σ.calls .owner with
  | some (.requestCancel .close s _) =>
    (σ.clients s).role = .stream ∧
      (σ.subs s).inner.originalTerminal ≠ (σ.subs s).inner.originals
  | _ => false

/-- Shutdown detaches no live stream whose originals are not all terminal. -/
def SparesStreams (σ : State) (a : Action) : Prop := a = .close .owner → σ.abandons = false

instance (σ : State) (a : Action) : Decidable (SparesStreams σ a) :=
  inferInstanceAs (Decidable (_ → _))

/-- What a spared stream's detachment leaves behind. -/
theorem SparesStreams.retired (h : SparesStreams σ a) (ha : a = .close .owner) {d : Delivery}
    (howner : σ.calls .owner = some (.requestCancel .close s d))
    (hrole : (σ.clients s).role = .stream) :
    (σ.subs s).inner.originalTerminal = (σ.subs s).inner.originals := by
  simpa [State.abandons, howner, hrole] using h ha

/-- A spared stream's results are as they should be. -/
theorem View.Streaming.of_reachable (h : Reachable cfg SparesStreams σ) (s : SubId) :
    (σ.view s).Streaming := by
  have hboth : (σ.view s).Buffered ∧ (σ.view s).Streaming := by
    refine h.view_inv (I := fun _ x => x.Buffered ∧ x.Streaming) (fun t => ?_) ?_ s
    · refine ⟨.of_reachable (Lts.Reaches.refl : Reachable cfg SparesStreams _) t, ?_⟩
      exact .none (by simp [State.view, State.init]) (.inr rfl) fun _ => rfl
    · intro σ a s y hfits _ hI hspares hs
      exact ⟨hI.1.step hfits hs, hI.2.step hI.1 hfits (fun ha => hspares.retired ha) hs⟩
  exact hboth.2

/-- Terminal counts that match leave no original of the submission unfinished. -/
theorem terminal_of_retired (h : Reachable cfg ok σ)
    (hretired : (σ.subs s).inner.originalTerminal = (σ.subs s).inner.originals) {p : Pointer}
    {c : CqeContext} (hc : σ.data.contexts.lookup p = some c) (hkind : c.kind = .original)
    (hstate : c.state = s) : c.phase = .terminal := by
  by_contra hphase
  have hpos := Finmap.count_pos_of_lookup (P := fun _ x => CqeContext.live s x) hc
    (by simp [CqeContext.live, hkind, hphase, hstate])
  have hcount := (Registry.Accounts.of_reachable h).originals s
  change (σ.subs s).inner.originals = (σ.subs s).inner.originalTerminal + _ at hcount
  rw [hretired] at hcount
  have : σ.registry.contexts = σ.data.contexts := rfl
  rw [this] at hcount
  omega

/-- `None` on a completion stream proves retirement, as long as shutdown detaches no live stream
whose originals are not all terminal: if a live stream that reported no error is about to return
`None`, every original of its submission is terminal. -/
theorem none_proves_retirement (h : Reachable cfg SparesStreams σ)
    (hrole : (σ.clients s).role = .stream)
    (herror : ∀ e, some (.error e) ∉ (σ.history s).received) {w : Waker}
    (hnone : (nextCompletion w (σ.subs s).inner).1 = .ready none) :
    (σ.subs s).inner.originalTerminal = (σ.subs s).inner.originals ∧
      ∀ p c, σ.data.contexts.lookup p = some c → c.kind = .original → c.state = s →
        c.phase = .terminal := by
  -- `None` has a cause in the state, and the condition leaves only the retirement.
  have hready : nextCompletion w (σ.subs s).inner =
      (.ready none, (nextCompletion w (σ.subs s).inner).2) := by
    rw [← hnone]
  have hretired : (σ.subs s).inner.originalTerminal = (σ.subs s).inner.originals := by
    obtain ⟨hover, hwhy⟩ : (σ.subs s).inner.normalOverflow = false ∧
        ((σ.subs s).inner.delivery ≠ .opened ∨ ((σ.subs s).inner.iteratorFinished = true ∧
          (σ.subs s).inner.originalTerminal = (σ.subs s).inner.originals)) := by
      rcases nextCompletion_ready hready with ⟨_, _, _, hr, _⟩ | ⟨_, _, hr, _⟩ |
        ⟨-, hover, -, -, hwhy⟩
      · cases hr
      · cases hr
      · exact ⟨hover, hwhy⟩
    cases ((View.Streaming.of_reachable h s).stream hrole).2 with
    | opened hd =>
      rcases hwhy with hne | ⟨-, ht⟩
      · exact absurd hd hne
      · exact ht
    | overflowed _ _ _ _ ho =>
      rw [show (σ.subs s).inner.normalOverflow = true from ho] at hover
      cases hover
    | reported _ _ _ _ _ hr =>
      exact absurd (hr ▸ error_mem_transcript.mpr rfl) (herror .bufferOverflow)
    | retired _ ht => exact ht
  exact ⟨hretired, fun p c hc hk hs => terminal_of_retired h hretired hc hk hs⟩

/-- One SQE is admitted and its stream obtained. -/
def openedStream : List Action :=
  [.registerSubmission, .openSubmission 0, .pollSubmit 0 7, .stageCancellation 10,
    .iteratorNext (some ⟨.raw 0, 99⟩), .stageOriginal 10, .iteratorNext none, .submit (.ok 1),
    .accept, .accept, .notify (.client 0), .checkSubmit 0]

/-- The CQE of the one SQE is posted and dispatched. -/
def completedStream : List Action :=
  openedStream ++
    [.passBegin, .stageCancellation 20, .stageOwnedCancellation 20, .stageOwned 20, .submit (.ok 0),
      .accept, .wakeAdmission, .wakeAdmission, .failOwned, .kernelPost ⟨10, 0, 0⟩, .reap, .dispatch]

/-- A stream that has returned its one completion and is about to return `None`. -/
theorem none_proves_retirement_tiny :
    ∃ σ, Reachable .tiny SparesStreams σ ∧ (σ.history 0).received = [some (.ok ⟨0, ⟨99, 0, 0⟩⟩)] ∧
      (σ.subs 0).inner.originalTerminal = (σ.subs 0).inner.originals ∧
        ∀ p c, σ.data.contexts.lookup p = some c → c.kind = .original → c.state = 0 →
          c.phase = .terminal := by
  have hrun : (Lts.exec (step .tiny) SparesStreams (completedStream ++ [.pollCompletion 0 8])
      (.init .tiny)).any
      (fun σ => (σ.clients 0).role = .stream ∧
        (σ.history 0).received = [some (.ok ⟨0, ⟨99, 0, 0⟩⟩)] ∧
        (nextCompletion 8 (σ.subs 0).inner).1 = .ready none) = true := by decide
  obtain ⟨σ, hσ, hrole, hreceived, hnone⟩ := Lts.exists_of_exec hrun
  refine ⟨σ, hσ, hreceived, none_proves_retirement hσ hrole ?_ hnone⟩
  rw [hreceived]
  intro e he
  cases List.mem_singleton.mp he

/-- Shutdown detaches a live stream whose original the kernel still has. -/
def abandonedStream : List Action :=
  openedStream ++
    [.beginShutdown, .shutdownAndWait, .closeAdmission, .raiseShutdown [], .cancelSubmission,
      .close .owner]

/-- The stream then returns `None` with its original in the kernel's hands. -/
theorem none_before_retirement :
    ∃ σ, Reachable .tiny Lts.Always σ ∧ (σ.clients 0).role = .stream ∧
      (σ.history 0).received = [] ∧ (nextCompletion 8 (σ.subs 0).inner).1 = .ready none ∧
      (σ.subs 0).inner.originals = 1 ∧ (σ.subs 0).inner.originalTerminal = 0 ∧
      (σ.data.contexts.lookup 10).map (·.phase) = some .submitted := by
  have hrun : (Lts.exec (step .tiny) Lts.Always abandonedStream (.init .tiny)).any
      (fun σ => (σ.clients 0).role = .stream ∧ (σ.history 0).received = [] ∧
        (nextCompletion 8 (σ.subs 0).inner).1 = .ready none ∧
        (σ.subs 0).inner.originals = 1 ∧ (σ.subs 0).inner.originalTerminal = 0 ∧
        (σ.data.contexts.lookup 10).map (·.phase) = some .submitted) = true := by decide
  exact Lts.exists_of_exec hrun

/-! ## Without shutdown -/

/-- The runtime is not shut down. -/
def NoShutdown (_ : State) (a : Action) : Prop := a ≠ .shutdownAndWait

instance (σ : State) (a : Action) : Decidable (NoShutdown σ a) :=
  inferInstanceAs (Decidable (_ ≠ _))

/-- The owner thread does nothing. -/
def State.Unowned (σ : State) : Prop := σ.owner = .idle ∧ σ.calls .owner = none

/-- Without shutdown the owner thread does nothing. -/
theorem State.Unowned.of_reachable (h : Reachable cfg NoShutdown σ) : σ.Unowned := by
  refine h.inv ⟨rfl, rfl⟩ ?_
  rintro σ τ a ⟨howner, hcall⟩ hno hm
  -- Another actor's call is not the owner's.
  have hset : ∀ {b : Actor} {x : Option Call} {y : Call}, σ.calls b = some y →
      Function.update σ.calls b x .owner = none := by
    intro b x y hb
    rw [Function.update_of_ne]
    · exact hcall
    · rintro rfl
      rw [hcall] at hb
      cases hb
  cases hm
  case shutdownAndWait => exact absurd rfl hno
  case close hb | sweep hb _ _ _ | sweepOwned hb _ _ | sweepOwnedNone hb _ _ | notify hb _ =>
    exact ⟨howner, hset hb⟩
  case closeAdmission hpc | raiseShutdown hpc _ _ _ | cancelSubmission hpc | submissionsEnd hpc |
      cancelSnapshot hpc | snapshotEnd hpc =>
    rw [howner] at hpc
    cases hpc
  case awaitCompleted => exact ⟨rfl, hcall⟩
  all_goals exact ⟨howner, hcall⟩

/-- Without shutdown no step detaches for the owner thread. -/
theorem NoShutdown.not_close (h : Reachable cfg NoShutdown σ) :
    Reachable cfg (fun σ a => NoShutdown σ a ∧ σ.Unowned) σ :=
  h.strengthen (J := fun σ => σ.Unowned) (fun _ => State.Unowned.of_reachable)
    fun _ _ hU hok => ⟨hok, hU⟩

/-- A run without shutdown spares every stream. -/
theorem NoShutdown.spares (h : Reachable cfg NoShutdown σ) : Reachable cfg SparesStreams σ := by
  refine h.strengthen (J := fun σ => σ.Unowned) (fun _ => State.Unowned.of_reachable) ?_
  intro σ a hU _ _
  simp [State.abandons, hU.2]

namespace View

/-- Until it is dropped, a submission loses no cancellation CQE without an error to show for it. -/
def Kept (x : View) : Prop :=
  x.client.role ≠ .gone → x.inner.delivery ≠ .detached ∧
    (x.inner.cancelOverflow = true ∨ some (.error .bufferOverflow) ∈ x.history.cancelReceived ∨
      oks x.history.cancelReceived ++ x.inner.cancellations = x.history.cancelled)

variable {x y : View}

/-- A step that leaves cancellation CQEs alone. -/
theorem Kept.frame (h : x.Kept) (hrole : y.client.role ≠ .gone → x.client.role ≠ .gone)
    (hdelivery : y.client.role ≠ .gone → x.inner.delivery ≠ .detached →
      y.inner.delivery ≠ .detached)
    (hoverflow : y.inner.cancelOverflow = x.inner.cancelOverflow)
    (hcancellations : y.client.role ≠ .gone → y.inner.cancellations = x.inner.cancellations)
    (hreceived : y.history.cancelReceived = x.history.cancelReceived)
    (hcancelled : y.history.cancelled = x.history.cancelled) : y.Kept := by
  intro hr
  obtain ⟨hd, hkept⟩ := h (hrole hr)
  refine ⟨hdelivery hr hd, ?_⟩
  rwa [hoverflow, hreceived, hcancellations hr, hcancelled]

/-- A poll of the cancellation that is ready returns what is kept. -/
theorem Kept.cancellationReady (h : x.Kept) {w : Waker} {r : NextResult} {st : SubmissionInner}
    (hrole : x.client.role = .cancellation)
    (hnext : nextCancellation w x.inner = (.ready r, st)) :
    Kept { x with
      inner := st
      client := { x.client with pend := none }
      history := { x.history with cancelReceived := x.history.cancelReceived ++ [r] } } := by
  intro _
  obtain ⟨hd, hkept⟩ := h (by simp [hrole])
  rcases nextCancellation_ready hnext with ⟨c, rest, hn, rfl, rfl⟩ | ⟨hn, ho, rfl, rfl⟩ |
    ⟨hn, ho, rfl, rfl, -⟩
  · refine ⟨hd, ?_⟩
    rcases hkept with hk | hk | hk
    · exact .inl hk
    · exact .inr (.inl (List.mem_append_left _ hk))
    · refine .inr (.inr ?_)
      rw [hn] at hk
      simpa [Except.toOption] using hk
  · exact ⟨hd, .inr (.inl (List.mem_append_right _ List.mem_cons_self))⟩
  · refine ⟨hd, ?_⟩
    rcases hkept with hk | hk | hk
    · exact .inl hk
    · exact .inr (.inl (List.mem_append_left _ hk))
    · exact .inr (.inr (by simpa using hk))

/-- The CQE of a cancellation is kept, or the overflow is. -/
theorem Kept.cancel (h : x.Kept) (c : Completion) (ws : List Waker) :
    Kept { x with
      inner := (dispatchCancel x.limit c (x.inner, [])).1
      woken := ws
      history := { x.history with cancelled := x.history.cancelled ++ [c] } } := by
  intro hr
  obtain ⟨hd, hkept⟩ := h hr
  rw [dispatchCancel_inner]
  refine ⟨hd, ?_⟩
  by_cases hlt : x.inner.cancellations.length < x.limit
  · simp only [ne_eq, hd, not_false_eq_true, true_and, hlt, if_true, Nat.not_le_of_lt hlt,
      and_false, decide_false, Bool.or_false]
    rcases hkept with hk | hk | hk
    · exact .inl hk
    · exact .inr (.inl hk)
    · exact .inr (.inr (by rw [← List.append_assoc, hk]))
  · exact .inl (by simp [hd, Nat.le_of_not_lt hlt])

/-- As long as the owner thread does not detach, cancellation CQEs are kept. -/
theorem Kept.step (h : x.Kept) (hf : x.client.Fits s x.call x.admits) (howner : x.owner = none)
    (hs : x.Step s a y) : y.Kept := by
  cases hs
  case other hinner _ hclient _ hhistory _ _ _ =>
    exact h.frame (fun hr => hclient ▸ hr) (fun _ hd => hinner ▸ hd) (by rw [hinner])
      (fun _ => by rw [hinner]) (by rw [hhistory]) (by rw [hhistory])
  case register hrole | submitFailed hrole _ _ _ | submitOk hrole _ _ _ _ _ _
    | submitPending hrole _ _ _ _ _ | cancelStream hrole | iteratorSome hrole _ _
    | staged hrole _ =>
    exact h.frame (by simp [hrole]) (fun _ => id) rfl (fun _ => rfl) rfl rfl
  case opened c hrole =>
    refine h.frame (by simp [hrole]) (fun _ hd => ?_) ?_ (fun _ => ?_) rfl rfl
    all_goals cases c
    · exact hd
    · simp
    all_goals rfl
  case dropSubmit | dropStream | dropCancellation => exact fun hr => absurd rfl hr
  case nextReady hrole hnext =>
    rcases nextCompletion_ready hnext with ⟨c, rest, -, -, rfl⟩ | ⟨-, -, -, rfl⟩ | ⟨-, -, -, rfl, -⟩
    all_goals exact h.frame id (fun _ => id) rfl (fun _ => rfl) rfl rfl
  case nextPending hnext =>
    obtain ⟨-, -, -, -, rfl⟩ := nextCompletion_pending hnext
    exact h.frame id (fun _ => id) rfl (fun _ => rfl) rfl rfl
  case cancellationReady hrole _ hnext => exact h.cancellationReady hrole hnext
  case cancellationPending hnext =>
    obtain ⟨-, -, -, rfl⟩ := nextCancellation_pending hnext
    exact h.frame id (fun _ => id) rfl (fun _ => rfl) rfl rfl
  -- The caller detaches only what it has dropped.
  case close d hx =>
    rw [hx] at hf
    rw [closeDelivery_eq]
    have hne : x.client.role ≠ .gone → d ≠ .detached := by
      rintro hr rfl
      exact hr hf.gone_of_detached
    refine h.frame id (fun hr hd => ?_) rfl (fun hr => ?_) rfl rfl
    · dsimp only
      split_ifs
      · exact hne hr
      · exact hd
    · exact if_neg (hne hr)
  -- Detaching by the owner thread is what the condition excludes.
  case ownerClose hcall =>
    rw [howner] at hcall
    cases hcall
  case wakeAdmission =>
    rw [wakeUnfinished_eq]
    exact h.frame id (fun _ => id) rfl (fun _ => rfl) rfl rfl
  case original c m _ =>
    rw [dispatchOriginal_inner]
    refine h.frame id (fun _ hd => ?_) rfl (fun _ => rfl) rfl rfl
    dsimp only
    split_ifs
    · simp
    · exact hd
  case cancel c _ => exact h.cancel c _
  all_goals exact h.frame id (fun _ => id) rfl (fun _ => rfl) rfl rfl

end View

/-- Without shutdown cancellation CQEs are kept. -/
theorem View.Kept.of_reachable (h : Reachable cfg NoShutdown σ) (s : SubId) : (σ.view s).Kept := by
  refine (NoShutdown.not_close h).view_inv (I := fun _ x => x.Kept) (fun t => ?_) ?_ s
  · exact fun _ => ⟨by simp [State.view, State.init, SubmissionState.new], .inr (.inr rfl)⟩
  · exact fun hfits _ hI hok hs => hI.step hfits hok.2.2 hs

/-- Matching cancellation counters leave one CQE for every cancellation generated. -/
theorem cancelled_perm_generated (h : Reachable cfg ok σ)
    (hc : (σ.subs s).inner.cancelTerminal = (σ.subs s).inner.cancels) :
    ((σ.history s).cancelled.map Completion.key).Perm (σ.history s).generated := by
  have hA := Registry.Accounts.of_reachable h
  -- With every cancellation dispatched, none is in a context or in the queue.
  have hgenerated : ∀ P, (σ.history s).generated.countP P =
      ((σ.history s).cancelled.map Completion.key).countP P +
        (σ.data.contexts.count fun _ c => c.cancels s P) +
        σ.data.cancelQueue.countP (CancelCommand.cancels s P) := hA.generated s
  have hcancels : (σ.subs s).inner.cancels = (σ.history s).generated.length := hA.cancels s
  have hterminal : (σ.subs s).inner.cancelTerminal =
      ((σ.history s).cancelled.map Completion.key).length := hA.cancelTerminal s
  have hall := hgenerated fun _ => true
  rw [List.countP_true] at hall
  have hcontexts : ∀ p c, σ.data.contexts.lookup p = some c → c.cancels s (fun _ => true) = false :=
    Finmap.count_eq_zero_iff.mp
      (by omega : (σ.data.contexts.count fun _ c => c.cancels s fun _ => true) = 0)
  have hcommands : ∀ k ∈ σ.data.cancelQueue, ¬ k.cancels s (fun _ => true) = true :=
    List.countP_eq_zero.mp (by omega)
  refine List.perm_iff_count.mpr fun key => ?_
  have hkey := hgenerated (· == key)
  have h1 : (σ.data.contexts.count fun _ c => c.cancels s (· == key)) = 0 := by
    rw [Finmap.count_eq_zero_iff]
    intro p c hpc
    have := hcontexts p c hpc
    simp only [CqeContext.cancels, Bool.and_true, Bool.and_eq_false_iff] at this ⊢
    exact .inl this
  have h2 : σ.data.cancelQueue.countP (CancelCommand.cancels s (· == key)) = 0 := by
    rw [List.countP_eq_zero]
    intro k hk
    have := hcommands k hk
    simp only [CancelCommand.cancels, Bool.and_true] at this
    simp [CancelCommand.cancels, this]
  rw [h1, h2] at hkey
  simpa [List.count] using hkey.symm

/-- What the stream and the cancellation of a submission return. -/
structure State.Delivers (σ : State) (s : SubId) : Prop where
  /-- A live stream has returned or buffered what was dispatched before the buffer overflowed. -/
  stream : (σ.clients s).role = .stream →
    oks (σ.history s).received ++ (σ.subs s).inner.normal =
      (σ.history s).dispatched.take ((σ.history s).full.getD (σ.history s).dispatched.length)
  /-- After an overflow it returns those completions, one error, and `None` from then on. -/
  overflowed : (σ.clients s).role = .stream → ∀ k, (σ.history s).full = some k →
    (σ.history s).received = (List.range (σ.history s).received.length).map
      (overflowScript ((σ.history s).dispatched.take k)) ∧
    ∀ w, (nextCompletion w (σ.subs s).inner).1 =
      .ready (overflowScript ((σ.history s).dispatched.take k) (σ.history s).received.length)
  /-- Without an overflow it returns completions, and then only `None`. -/
  unbroken : (σ.clients s).role = .stream → (σ.history s).full = none →
    ∃ n, (σ.history s).received = transcript (oks (σ.history s).received) false n
  /-- Without an overflow `None` means that every original is terminal and everything returned. -/
  ended : (σ.clients s).role = .stream → (σ.history s).full = none →
    (none ∈ (σ.history s).received ∨
      ∃ w, (nextCompletion w (σ.subs s).inner).1 = .ready none) →
    (σ.subs s).inner.originalTerminal = (σ.subs s).inner.originals ∧
      oks (σ.history s).received = (σ.history s).dispatched
  /-- A cancellation read to `None` without an error has returned one completion for each
  cancellation generated. -/
  cancellation : (σ.clients s).role = .cancellation →
    (∀ e, some (.error e) ∉ (σ.history s).cancelReceived) →
    (∃ w, (nextCancellation w (σ.subs s).inner).1 = .ready none) →
    ((oks (σ.history s).cancelReceived).map Completion.key).Perm (σ.history s).generated
  normal_le : (σ.subs s).inner.normal.length ≤ (σ.subs s).limit
  cancellations_le : (σ.subs s).inner.cancellations.length ≤ (σ.subs s).limit
  detached : (σ.subs s).inner.delivery = .detached →
    (σ.subs s).inner.normal = [] ∧ (σ.subs s).inner.cancellations = []

/-- The next result of a stream whose overflow is not reported yet follows the script. -/
theorem nextCompletion_overflowed {st : SubmissionInner} (cs : List Completion) (w : Waker)
    (hover : st.normalOverflow = true) :
    (nextCompletion w st).1 = .ready (overflowScript (cs ++ st.normal) cs.length) := by
  unfold nextCompletion
  split
  next c rest hn => simp [overflowScript, hn]
  next hn => simp [overflowScript, hn, hover]

/-- Once the overflow is reported there is only `None`. -/
theorem nextCompletion_reported {st : SubmissionInner} (w : Waker) (hnormal : st.normal = [])
    (hover : st.normalOverflow = false) (hd : st.delivery ≠ .opened) :
    (nextCompletion w st).1 = .ready none := by
  simp [nextCompletion, hnormal, hover, hd]

/-- An open stream about to return `None` has returned everything. -/
theorem nextCompletion_ended {st : SubmissionInner} {w : Waker}
    (hnone : (nextCompletion w st).1 = .ready none) (hd : st.delivery = .opened) :
    st.normal = [] ∧ st.originalTerminal = st.originals := by
  have hready : nextCompletion w st = (.ready none, (nextCompletion w st).2) := by rw [← hnone]
  rcases nextCompletion_ready hready with ⟨_, _, _, hr, _⟩ | ⟨_, _, hr, _⟩ | ⟨hn, -, -, -, hwhy⟩
  · cases hr
  · cases hr
  · rcases hwhy with hne | ⟨-, ht⟩
    · exact absurd hd hne
    · exact ⟨hn, ht⟩

/-- What a live stream returned before it overflowed is what was dispatched. -/
theorem State.Delivers.of_reachable (h : Reachable cfg NoShutdown σ) (s : SubId) :
    σ.Delivers s := by
  have hB := View.Buffered.of_reachable h s
  have hstreams : (σ.clients s).role = .stream → (σ.view s).Streams := fun hr =>
    ((View.Streaming.of_reachable (NoShutdown.spares h) s).stream hr).2
  have hattached : (σ.clients s).role ≠ .gone → (σ.subs s).inner.delivery ≠ .detached := fun hr =>
    (View.Kept.of_reachable h s hr).1
  refine ⟨fun hr => ?_, fun hr k hk => ?_, fun hr hn => ?_, fun hr hn hnone => ?_,
    fun hr herror hnone => ?_, hB.normal_le, hB.cancellations_le, hB.detached⟩
  · cases hstreams hr with
    | opened hd hfull _ _ =>
      -- Without overflow everything dispatched counts.
      rw [show (σ.history s).full = none from hfull, Option.getD_none, List.take_length]
      exact (hB.opened hd).2
    | overflowed _ hfull _ htake _ hreceived =>
      rw [show (σ.history s).full = some _ from hfull,
        show (σ.history s).received = _ from hreceived, oks_transcript]
      exact htake
    | reported _ hfull _ _ hnormal hreceived =>
      rw [show (σ.history s).full = some _ from hfull,
        show (σ.history s).received = _ from hreceived, oks_transcript,
        show (σ.subs s).inner.normal = [] from hnormal, List.append_nil]
      rfl
    | retired hd _ => exact absurd hd (hattached (by simp [hr]))
  · cases hstreams hr with
    | opened _ hfull _ _ =>
      rw [show (σ.history s).full = none from hfull] at hk
      cases hk
    | @overflowed cs k' _ hfull _ htake hover hreceived =>
      obtain rfl : k' = k := Option.some.inj (hfull.symm.trans hk)
      rw [show (σ.history s).received = _ from hreceived]
      -- The waiting CQEs come before the error in the script.
      have htake : cs ++ (σ.subs s).inner.normal = (σ.history s).dispatched.take k' := htake
      have hlength : (transcript cs false 0).length = cs.length := by simp [transcript]
      rw [hlength, ← htake]
      exact ⟨transcript_script cs _, fun w => nextCompletion_overflowed cs w hover⟩
    | @reported k' n hd hfull _ hover hnormal hreceived =>
      obtain rfl : k' = k := Option.some.inj (hfull.symm.trans hk)
      have hlength : (transcript ((σ.history s).dispatched.take k') true n).length =
          ((σ.history s).dispatched.take k').length + (n + 1) := by
        simp [transcript, Nat.add_comm]
      have hreceived : (σ.history s).received =
          transcript ((σ.history s).dispatched.take k') true n := hreceived
      have hclosed : (σ.subs s).inner.delivery ≠ .opened := by
        rw [show (σ.subs s).inner.delivery = .overflow from hd]
        simp
      rw [hreceived, hlength]
      refine ⟨transcript_script_reported _ n, fun w => ?_⟩
      rw [@nextCompletion_reported (σ.subs s).inner w hnormal hover hclosed, overflowScript,
        dif_neg (by omega), if_neg (by omega)]
    | retired hd _ => exact absurd hd (hattached (by simp [hr]))
  · cases hstreams hr with
    | @opened cs n _ _ hreceived _ =>
      refine ⟨n, ?_⟩
      rw [show (σ.history s).received = _ from hreceived, oks_transcript]
    | overflowed _ hfull _ _ _ _ | reported _ hfull _ _ _ _ =>
      rw [show (σ.history s).full = some _ from hfull] at hn
      cases hn
    | retired hd _ => exact absurd hd (hattached (by simp [hr]))
  · cases hstreams hr with
    | opened hd _ hreceived hend =>
      -- The end is reported only on an empty queue, when all originals are over.
      have hboth : (σ.subs s).inner.normal = [] ∧
          (σ.subs s).inner.originalTerminal = (σ.subs s).inner.originals := by
        rcases hnone with hnone | ⟨w, hnone⟩
        · rw [show (σ.history s).received = _ from hreceived, none_mem_transcript] at hnone
          exact hend hnone
        · exact nextCompletion_ended hnone hd
      refine ⟨hboth.2, ?_⟩
      have heq : oks (σ.history s).received ++ (σ.subs s).inner.normal =
          (σ.history s).dispatched := (hB.opened hd).2
      rwa [hboth.1, List.append_nil] at heq
    | overflowed _ hfull _ _ _ _ | reported _ hfull _ _ _ _ =>
      rw [show (σ.history s).full = some _ from hfull] at hn
      cases hn
    | retired hd _ => exact absurd hd (hattached (by simp [hr]))
  · obtain ⟨w, hnone⟩ := hnone
    have hready : nextCancellation w (σ.subs s).inner =
        (.ready none, (nextCancellation w (σ.subs s).inner).2) := by rw [← hnone]
    rcases nextCancellation_ready hready with ⟨_, _, _, hr', _⟩ | ⟨_, _, hr', _⟩ |
      ⟨hn, hover, -, -, hterminal⟩
    · cases hr'
    · cases hr'
    · -- A cancellation that has received its end has received every result or an error.
      have hkept := (View.Kept.of_reachable h s (by simp [State.view, hr])).2
      simp only [State.view, hn, hover, List.append_nil, Bool.false_eq_true, false_or] at hkept
      rcases hkept with he | heq
      · exact absurd he (herror _)
      · rw [heq]
        exact cancelled_perm_generated h hterminal

/-- Without shutdown, completions are delivered in order, without loss and without duplicates; and
a cancellation that can be read has been generated whatever will ever be. -/
theorem delivery_in_order (h : Reachable cfg NoShutdown σ) :
    σ.Delivers s ∧
      ((σ.clients s).role = .cancellation → σ.calls (.client s) = none →
        ∀ τ, Lts.Reaches (step cfg) NoShutdown σ τ →
          (τ.history s).generated = (σ.history s).generated) := by
  refine ⟨.of_reachable h s, fun hr hcall τ hτ => ?_⟩
  have hswept : σ.registry.Swept s :=
    State.Closed.of_reachable h s (by rw [hr]; rfl) fun st d hd => by simp [hcall] at hd
  have hall : Reachable cfg NoShutdown τ ∧ (τ.clients s).role.closed = true ∧
      τ.registry.Swept s ∧ (τ.history s).generated = (σ.history s).generated := by
    refine hτ.invariant (I := fun τ => Reachable cfg NoShutdown τ ∧
      (τ.clients s).role.closed = true ∧ τ.registry.Swept s ∧
        (τ.history s).generated = (σ.history s).generated) ⟨h, by rw [hr]; rfl, hswept, rfl⟩ ?_
    rintro τ υ a ⟨hreach, hclosed, hswept, hgenerated⟩ hok hstep
    obtain ⟨hclosed', horiginals⟩ := (hreach.view_step hstep s).closed hclosed
    have hregistry :=
      registry_move (.of_reachable hreach) (.of_reachable hreach) (move_of_step hstep)
    exact ⟨hreach.tail hok hstep, hclosed', hregistry.swept hswept horiginals,
      (hregistry.generated_of_swept hswept).trans hgenerated⟩
  exact hall.2.2.2

/-- Of three CQEs of a multishot SQE the third overflows the buffer, and the stream is read to the
error. -/
def overflowedStream : List Action :=
  openedStream ++
    [.passBegin, .stageCancellation 20, .stageOwnedCancellation 20, .stageOwned 20, .submit (.ok 0),
      .accept, .wakeAdmission, .wakeAdmission, .failOwned, .kernelPost ⟨10, 1, 2⟩,
      .kernelPost ⟨10, 2, 2⟩, .kernelPost ⟨10, 3, 2⟩, .reap, .dispatch, .dispatch, .dispatch,
      .pollCompletion 0 8, .pollCompletion 0 8, .pollCompletion 0 8]

/-- The two completions that were buffered come in their order, and the error behind them. -/
theorem delivery_in_order_tiny :
    ∃ σ, Reachable .tiny NoShutdown σ ∧ (σ.clients 0).role = .stream ∧
      (σ.history 0).received = [some (.ok ⟨0, ⟨99, 1, 2⟩⟩), some (.ok ⟨0, ⟨99, 2, 2⟩⟩),
        some (.error .bufferOverflow)] ∧ σ.Delivers 0 ∧
      ((σ.clients 0).role = .cancellation → σ.calls (.client 0) = none →
        ∀ τ, Lts.Reaches (step .tiny) NoShutdown σ τ →
          (τ.history 0).generated = (σ.history 0).generated) := by
  have hrun : (Lts.exec (step .tiny) NoShutdown overflowedStream (.init .tiny)).any
      (fun σ => (σ.clients 0).role = .stream ∧
        (σ.history 0).received = [some (.ok ⟨0, ⟨99, 1, 2⟩⟩), some (.ok ⟨0, ⟨99, 2, 2⟩⟩),
          some (.error .bufferOverflow)]) = true := by decide
  obtain ⟨σ, hσ, hrole, hreceived⟩ := Lts.exists_of_exec hrun
  exact ⟨σ, hσ, hrole, hreceived, delivery_in_order hσ⟩

end Nosv.IoUring
