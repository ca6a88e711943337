import VpnPanel.UserPage.EventStream
import VpnPanel.Lib.TSys

/-!
# The sources of the change stream

`createUserEventStream` together with what it does to the browser: the
`EventSource`s it creates and closes and the handlers it calls. The page may
call `open` and `close` and change its token at any moment, a source may fire at
any moment, also after it was closed, and the retry timer fires when it is due.
-/

namespace VpnPanel.UserPage

open VpnPanel.Lib

/-- A source that was created, under the `gen` of its listeners. -/
structure EventSource where
  generation : Nat
  /-- The token of its url. -/
  token : Token
  closed : Bool := false
  /-- `rejectedToken` when the source was created. -/
  rejected : Option Token
  /-- Whether `close` was the last call of the page when the source was created. -/
  shut : Bool
  deriving DecidableEq, Repr

/-- The stream, the page's token and the browser's side of both. -/
structure Channel where
  stream : UserEventStream := {}
  token : Token
  sources : List EventSource := []
  signals : List Signal := []
  /-- Whether `close` was the last call of the page. -/
  shut : Bool := false
  deriving DecidableEq, Repr

/-- `previous.close()`. -/
def closeSource (previous : Option Nat) (sources : List EventSource) : List EventSource :=
  sources.map fun s => if previous = some s.generation then { s with closed := true } else s

/-- Whether the listener of a frame calls `detach`. -/
def Frame.detaches : Frame → Bool
  | .unauthorized => true
  | .error closed => closed
  | _ => false

namespace Channel

variable (c : Channel)

def detach : Channel :=
  { c with stream := c.stream.detach, sources := closeSource c.stream.source c.sources }

def connect : Channel :=
  if c.token = "" then c
  else { c with
    stream := c.stream.connect c.token
    sources := c.sources ++
      [{ generation := c.stream.generation + 1, token := c.token,
         rejected := c.stream.rejectedToken, shut := c.shut }] }

/-- `open`, a reserved word here. -/
def openFor : Channel :=
  let c := { c with stream := { c.stream with disabled := false }, shut := false }
  if c.token = "" then ({ c with stream := c.stream.cancelRetry } : Channel).detach
  else if c.stream.source ≠ none ∧ c.stream.connectedToken = some c.token then c
  else if c.stream.source = none ∧ c.stream.rejectedToken = some c.token then c
  else c.detach.connect

def close : Channel :=
  ({ c with
    stream := ({ c.stream with disabled := true } : UserEventStream).cancelRetry
    shut := true } : Channel).detach

/-- The listeners of the source of `generation`; those of an older one return at
once. -/
def receive (generation : Nat) (frame : Frame) : Channel :=
  if generation ≠ c.stream.generation then c
  else { c with
    stream := (c.stream.receive frame).1
    signals := c.signals ++ (c.stream.receive frame).2.toList
    sources := if frame.detaches then closeSource c.stream.source c.sources else c.sources }

/-- The listener of the retry timer. -/
def fire : Channel :=
  ({ c with stream := { c.stream with retry := none } } : Channel).connect

end Channel

inductive StreamEvent
  | open
  | close
  | setToken (token : Token)
  | frame (generation : Nat) (frame : Frame)
  | retry
  deriving DecidableEq, Repr

/-- The next state; `none` when the event is not enabled. -/
def Channel.step (c : Channel) : StreamEvent → Option Channel
  | .open => some c.openFor
  | .close => some c.close
  | .setToken token => some { c with token }
  | .frame generation frame =>
      if c.sources.any (·.generation = generation) then some (c.receive generation frame)
      else none
  | .retry => if c.stream.retry ≠ none then some c.fire else none

/-- The stream of a page that starts with `token`. -/
def eventStream (token : Token) : TSys Channel StreamEvent where
  init := { token }
  step := Channel.step

/-! ## The stream inside the channel -/

namespace Channel

variable {c : Channel}

@[simp] theorem detach_stream : c.detach.stream = c.stream.detach := rfl

theorem connect_stream : c.connect.stream = c.stream.connect c.token := by
  unfold connect UserEventStream.connect
  split
  · rfl
  · rfl

theorem openFor_stream : c.openFor.stream = c.stream.openFor c.token := by
  unfold openFor UserEventStream.openFor
  dsimp only
  split
  · rfl
  · split
    · rfl
    · split
      · rfl
      · exact connect_stream

theorem close_stream : c.close.stream = c.stream.close := rfl

theorem fire_stream :
    c.fire.stream = ({ c.stream with retry := none } : UserEventStream).connect c.token :=
  connect_stream

end Channel

/-- A retry moves the timer and the count of attempts. -/
theorem UserEventStream.scheduleRetry_eq (s : UserEventStream) : ∃ retry attempts,
    s.scheduleRetry = { s with retry, attempts } ∧ (s.disabled = true → retry = s.retry) := by
  unfold scheduleRetry
  split
  · exact ⟨s.retry, s.attempts, rfl, fun _ => rfl⟩
  · next hdisabled => exact ⟨_, _, rfl, fun h => absurd h hdisabled⟩

/-! ## Which source is open -/

theorem mem_closeSource {previous : Option Nat} {sources : List EventSource} {s : EventSource}
    (h : s ∈ closeSource previous sources) :
    ∃ old ∈ sources, s.generation = old.generation ∧ s.token = old.token ∧
      s.rejected = old.rejected ∧ s.shut = old.shut ∧
      ((previous = some old.generation ∧ s.closed = true) ∨
        (previous ≠ some old.generation ∧ s.closed = old.closed)) := by
  obtain ⟨old, hold, rfl⟩ := List.mem_map.mp h
  refine ⟨old, hold, ?_⟩
  split
  · next hprevious => exact ⟨rfl, rfl, rfl, rfl, .inl ⟨hprevious, rfl⟩⟩
  · next hprevious => exact ⟨rfl, rfl, rfl, rfl, .inr ⟨hprevious, rfl⟩⟩

theorem closeSource_generations (previous : Option Nat) (sources : List EventSource) :
    (closeSource previous sources).map EventSource.generation =
      sources.map EventSource.generation := by
  rw [closeSource, List.map_map]
  refine List.map_congr_left fun s _ => ?_
  show (if previous = some s.generation then { s with closed := true } else s).generation = _
  split
  · rfl
  · rfl

/-- What holds of the sources between any two events: the open one is the
stream's, and a timer waits only while none is open. -/
structure Channel.Ok (c : Channel) : Prop where
  generations : ∀ s ∈ c.sources, s.generation ≤ c.stream.generation
  distinct : (c.sources.map EventSource.generation).Nodup
  unclosed : ∀ s ∈ c.sources, s.closed = false → c.stream.source = some s.generation
  closed : ∀ s ∈ c.sources, s.closed = true → s.generation < c.stream.generation
  current : ∀ g, c.stream.source = some g → g = c.stream.generation
  waiting : c.stream.retry ≠ none → c.stream.source = none
  shut : c.shut = true →
    c.stream.source = none ∧ c.stream.retry = none ∧ c.stream.disabled = true
  quiet : ∀ s ∈ c.sources, s.shut = false

namespace Channel

variable {c : Channel}

/-- `detach` closes the source that is open. -/
theorem Ok.detach (h : c.Ok) : c.detach.Ok where
  generations := fun s hs => by
    obtain ⟨old, hold, hgen, -⟩ := mem_closeSource hs
    have := h.generations old hold
    show s.generation ≤ c.stream.generation + 1
    omega
  distinct := by
    show ((closeSource _ _).map _).Nodup
    rw [closeSource_generations]
    exact h.distinct
  unclosed := fun s hs hopen => by
    obtain ⟨old, hold, -, -, -, -, ⟨-, hclosed⟩ | ⟨hother, hsame⟩⟩ := mem_closeSource hs
    · exact absurd (hclosed.symm.trans hopen) (by decide)
    · exact absurd (h.unclosed old hold (hsame.symm.trans hopen)) hother
  closed := fun s hs _ => by
    obtain ⟨old, hold, hgen, -⟩ := mem_closeSource hs
    have := h.generations old hold
    show s.generation < c.stream.generation + 1
    omega
  current := fun g hg => nomatch hg
  waiting := fun _ => rfl
  shut := fun hshut => ⟨rfl, (h.shut hshut).2⟩
  quiet := fun s hs => by
    obtain ⟨old, hold, -, -, -, hshut, -⟩ := mem_closeSource hs
    exact hshut.trans (h.quiet old hold)

/-- A connection is made with no source open, and not after `close`. -/
theorem Ok.connect (h : c.Ok) (hsource : c.stream.source = none) (hopen : c.shut = false) :
    c.connect.Ok := by
  by_cases htoken : c.token = ""
  · rwa [show c.connect = c from if_pos htoken]
  · have hstream : c.stream.connect c.token = { c.stream.cancelRetry with
        generation := c.stream.generation + 1
        connectedToken := some c.token
        source := some (c.stream.generation + 1) } := if_neg htoken
    have hclosed : ∀ s ∈ c.sources, s.closed = true := by
      intro s hs
      by_contra hs'
      have := h.unclosed s hs (by simpa using hs')
      rw [hsource] at this
      cases this
    unfold Channel.connect
    rw [if_neg htoken, hstream]
    refine ⟨fun s hs => ?_, ?_, fun s hs hnew => ?_, fun s hs hold => ?_,
      fun g hg => (Option.some.inj hg).symm, fun hretry => absurd rfl hretry,
      fun hshut => absurd (hopen.symm.trans hshut) (by decide), fun s hs => ?_⟩
    · rcases List.mem_append.mp hs with hs | hs
      · exact Nat.le_succ_of_le (h.generations s hs)
      · cases List.mem_singleton.mp hs
        exact Nat.le_refl _
    · -- the new generation is above all earlier ones
      rw [List.map_append]
      refine List.nodup_append.mpr ⟨h.distinct, by simp, fun g hg g' hg' => ?_⟩
      obtain ⟨s, hs, rfl⟩ := List.mem_map.mp hg
      have hle := h.generations s hs
      have hnew : g' = c.stream.generation + 1 := by simpa using hg'
      omega
    · rcases List.mem_append.mp hs with hs | hs
      · exact absurd ((hclosed s hs).symm.trans hnew) (by decide)
      · rw [List.mem_singleton.mp hs]
    · rcases List.mem_append.mp hs with hs | hs
      · exact Nat.lt_succ_of_le (h.generations s hs)
      · rw [List.mem_singleton.mp hs] at hold
        cases hold
    · rcases List.mem_append.mp hs with hs | hs
      · exact h.quiet s hs
      · rw [List.mem_singleton.mp hs]
        exact hopen

/-- Nothing that touches neither the sources nor the generation is seen here. -/
theorem Ok.of_eq {d : Channel} (h : c.Ok) (hsources : d.sources = c.sources)
    (hgeneration : d.stream.generation = c.stream.generation)
    (hsource : d.stream.source = c.stream.source)
    (hwaiting : d.stream.retry ≠ none → d.stream.source = none)
    (hshut : d.shut = true →
      d.stream.source = none ∧ d.stream.retry = none ∧ d.stream.disabled = true) : d.Ok where
  generations := by
    rw [hsources, hgeneration]
    exact h.generations
  distinct := hsources ▸ h.distinct
  unclosed := by
    rw [hsources, hsource]
    exact h.unclosed
  closed := by
    rw [hsources, hgeneration]
    exact h.closed
  current := by
    rw [hsource, hgeneration]
    exact h.current
  waiting := hwaiting
  shut := hshut
  quiet := hsources ▸ h.quiet

theorem Ok.openFor (h : c.Ok) : c.openFor.Ok := by
  have hcleared : ({ c with
      stream := { c.stream with disabled := false }, shut := false } : Channel).Ok :=
    h.of_eq rfl rfl rfl h.waiting nofun
  unfold Channel.openFor
  dsimp only
  split
  · exact (hcleared.of_eq (d := { c with
      stream := ({ c.stream with disabled := false } : UserEventStream).cancelRetry
      shut := false }) rfl rfl rfl (fun hretry => absurd rfl hretry) nofun).detach
  · split
    · exact hcleared
    · split
      · exact hcleared
      · exact hcleared.detach.connect rfl rfl

theorem Ok.close (h : c.Ok) : c.close.Ok := by
  have hdown := (h.of_eq (d := { c with
    stream := ({ c.stream with disabled := true } : UserEventStream).cancelRetry })
    rfl rfl rfl (fun hretry => absurd rfl hretry)
    (fun hshut => ⟨(h.shut hshut).1, rfl, rfl⟩)).detach
  exact ⟨hdown.generations, hdown.distinct, hdown.unclosed, hdown.closed, hdown.current,
    hdown.waiting, fun _ => ⟨rfl, rfl, rfl⟩, hdown.quiet⟩

/-- The listeners of a source that was closed return at once. -/
theorem Ok.receive_dropped (h : c.Ok) {s : EventSource} (hs : s ∈ c.sources)
    (hclosed : s.closed = true) (frame : Frame) : c.receive s.generation frame = c := by
  have := h.closed s hs hclosed
  exact if_pos (by omega)

/-- A frame of the open source. The stream is down after it, or as it was. -/
theorem Ok.receive (h : c.Ok) (generation : Nat) (frame : Frame) :
    (c.receive generation frame).Ok := by
  unfold Channel.receive
  split
  · exact h
  · cases frame with
    | connected payload => exact h.of_eq rfl rfl rfl h.waiting h.shut
    | changed reason => exact h.of_eq rfl rfl rfl h.waiting h.shut
    | «open» => exact h.of_eq rfl rfl rfl h.waiting h.shut
    | unauthorized =>
        exact h.detach.of_eq rfl rfl rfl (fun _ => rfl)
          fun hshut => ⟨rfl, (h.shut hshut).2.1, rfl⟩
    | error closed =>
        cases closed with
        | false => exact h.of_eq rfl rfl rfl h.waiting h.shut
        | true =>
          -- a source that was refused: `scheduleRetry` arms the timer unless the
          -- stream was closed
          obtain ⟨retry, attempts, heq, hdisabled⟩ := c.stream.detach.scheduleRetry_eq
          have hreceive : (c.stream.receive (.error true)).1 =
              { c.stream.detach with retry, attempts } := heq
          rw [hreceive]
          refine h.detach.of_eq rfl rfl rfl (fun _ => rfl) fun hshut => ?_
          obtain ⟨-, hretry, hd⟩ := h.shut hshut
          exact ⟨rfl, (hdisabled hd).trans hretry, hd⟩

theorem Ok.fire (h : c.Ok) (hretry : c.stream.retry ≠ none) : c.fire.Ok := by
  have hopen : c.shut = false := by
    by_contra hshut
    exact hretry (h.shut (by simpa using hshut)).2.1
  refine Ok.connect (h.of_eq rfl rfl rfl ?_ ?_) (h.waiting hretry) hopen
  · exact fun hnone => absurd rfl hnone
  · exact fun hshut => absurd (hopen.symm.trans hshut) (by decide)

/-- **Step.** Every event keeps the sources in order. -/
theorem Ok.step {e : StreamEvent} {d : Channel} (h : c.Ok) (hstep : c.step e = some d) :
    d.Ok := by
  cases e with
  | «open» =>
      cases hstep
      exact h.openFor
  | close =>
      cases hstep
      exact h.close
  | setToken token =>
      cases hstep
      exact h.of_eq rfl rfl rfl h.waiting h.shut
  | frame generation frame =>
      unfold Channel.step at hstep
      dsimp only at hstep
      split at hstep
      · cases hstep
        exact h.receive generation frame
      · cases hstep
  | retry =>
      unfold Channel.step at hstep
      dsimp only at hstep
      split at hstep
      · next hretry =>
        cases hstep
        exact h.fire hretry
      · cases hstep

theorem Ok.init (token : Token) : ({ token } : Channel).Ok :=
  ⟨nofun, .nil, nofun, nofun, nofun, nofun, nofun, nofun⟩

end Channel

end VpnPanel.UserPage
