import Inim.Catalog.Readiness
import Inim.Catalog.Runs
import Inim.Discover.Select
import Inim.Lib.Guards
/-!
# The ticket of a job (`worker.rs:895-999`, `sources/internet2/ticket.rs:24-47`, `:147-203`)

| here | there |
| --- | --- |
| `NaiveDateTime`, `FixedDateTime` | `chrono::NaiveDateTime`, `chrono::DateTime<FixedOffset>` |
| `Fixture`, `Internet2Ticket`     | `TicketFixture` (`ticket.rs:149`), `Internet2Ticket` (`:16`) |
| `parseTimeWindow`, `parseTicketFixture` | `ticket.rs:167-203`, `:24-47` |
| `genericTicketInput`             | `worker.rs:904-999`, its queries as `loadEvent`, `loadPlanManifest` |
| `ticketOf`, `ticketText`         | the object it writes, and its text |

The worker writes the ticket of a job as a file and the pipeline parses that file. `fmt` writes a
time without its offset ("an absent timezone" is UTC for the parser) and without what is below a
second, so the parser reads the clock of the source as if it were UTC. "The raw payload is used
verbatim when it already parses as a ticket fixture": the test hands the payload to a function that
takes a path, so it asks whether the payload *names* a fixture.

The file system, the JSON parser and chrono's texts are parameters (`TicketEnv`).
-/

namespace Inim

open Lib

/-! ## Times -/

/-- A clock without offset; a leap second has a billion nanoseconds and more. -/
structure NaiveDateTime where
  secs : Int
  nanos : Nat
  nanos_lt : nanos < 2000000000
  secs_inRange : utcInRange secs = true

namespace NaiveDateTime

/-- Read as UTC. -/
def instant (t : NaiveDateTime) : DateTime := t.secs * 1000000000 + t.nanos

def subsec (t : NaiveDateTime) : Nat := t.nanos % 1000000000

def wholeSecond (t : NaiveDateTime) : NaiveDateTime where
  secs := t.secs
  nanos := t.nanos / 1000000000 * 1000000000
  nanos_lt := by
    have := t.nanos_lt
    omega
  secs_inRange := t.secs_inRange

theorem wholeSecond_instant (t : NaiveDateTime) : t.wholeSecond.instant = t.instant - t.subsec := by
  simp only [instant, wholeSecond, subsec, DateTime]
  omega

end NaiveDateTime

/-- `offset` is in seconds east of UTC. -/
structure FixedDateTime where
  naiveLocal : NaiveDateTime
  offset : Int

def FixedDateTime.instant (t : FixedDateTime) : DateTime :=
  t.naiveLocal.instant - t.offset * 1000000000

/-- `and_local_timezone(offset).single()`. -/
def NaiveDateTime.andLocalTimezone (t : NaiveDateTime) (offset : Int) : Option FixedDateTime :=
  if utcInRange (t.secs - offset) then some ⟨t, offset⟩ else none

/-- A whole second of a clock that shows UTC. -/
def FixedDateTime.PlainUtc (t : FixedDateTime) : Prop := t.offset = 0 ∧ t.naiveLocal.subsec = 0

instance (t : FixedDateTime) : Decidable t.PlainUtc := inferInstanceAs (Decidable (_ ∧ _))

/-- Reading the clock of a source as UTC keeps the instant only for a plain UTC time: what is lost
below a second never makes up for an offset. -/
theorem FixedDateTime.wholeSecond_instant_iff (t : FixedDateTime) :
    t.naiveLocal.wholeSecond.instant = t.instant ↔ t.PlainUtc := by
  have hsub : t.naiveLocal.subsec < 1000000000 := Nat.mod_lt _ (by decide)
  rw [NaiveDateTime.wholeSecond_instant, FixedDateTime.instant, PlainUtc]
  simp only [DateTime]
  omega

/-! ## The ticket parser -/

/-- `TicketFixture`. -/
structure Fixture where
  id : String
  title : String
  start : String
  stop : String
  ticketType : String
  description : String
  timezone : Option String
deriving DecidableEq, Repr

structure Internet2Ticket where
  id : String
  title : String
  window : EventWindow
  raw : Json

structure TicketEnv where
  readToString : String → Except String String
  fixtureFromStr : String → Except String Fixture
  valueFromStr : String → Except String Json
  parseFromRfc3339 : String → Option FixedDateTime
  /-- Writing with the format `%Y-%m-%d %H:%M:%S`, -/
  format : NaiveDateTime → String
  /-- and reading with it. -/
  parseFromStr : String → Except String NaiveDateTime

def okOr (o : Option α) (e : String) : Except String α :=
  match o with
  | some a => .ok a
  | none => .error e

def timezoneOffset : Option String → Except String Int
  | none => .ok 0
  | some tz =>
    if tz = "EDT" ∨ tz = "Eastern Daylight" then .ok (-4 * 3600)
    else if tz = "EST" ∨ tz = "Eastern Standard" then .ok (-5 * 3600)
    else .error ("unsupported timezone '" ++ tz ++ "' in fixture; supported: EDT, EST")

section Parser
variable (env : TicketEnv)

/-- The start or the end of a window; `name` is the word the messages use. -/
def readTime (name text : String) (timezone : Option String) (offset : Int) :
    Except String FixedDateTime := do
  let t ← (env.parseFromStr text).mapError fun e => "invalid " ++ name ++ " time '" ++ text ++ "': " ++ e
  okOr (t.andLocalTimezone offset) ("ambiguous " ++ name ++ " time '" ++ text ++ "' at "
    ++ (timezone.map fun tz => "Some(\"" ++ tz ++ "\")").getD "None")

def parseTimeWindow (start stop : String) (timezone : Option String) :
    Except String EventWindow := do
  let offset ← timezoneOffset timezone
  let start ← readTime env "start" start timezone offset
  let stop ← readTime env "end" stop timezone offset
  return ⟨start.instant, stop.instant⟩

/-- What `parse_ticket_fixture` makes of the content of the file. -/
def parseTicket (content : String) : Except String Internet2Ticket := do
  let fixture ← (env.fixtureFromStr content).mapError ("invalid fixture JSON: " ++ ·)
  let window ← parseTimeWindow env fixture.start fixture.stop fixture.timezone
  return {
    id := fixture.id
    title := fixture.title
    window := window
    raw := .obj [("id", .str fixture.id), ("title", .str fixture.title), ("start", .str fixture.start),
      ("end", .str fixture.stop), ("type", .str fixture.ticketType),
      ("description", .str fixture.description)] }

def parseTicketFixture (path : String) : Except String Internet2Ticket := do
  let content ← (env.readToString path).mapError ("failed to read fixture: " ++ ·)
  parseTicket env content

end Parser

/-! ## The worker -/

/-- `.get(key).and_then(as_str)`. -/
def Json.field (v : Json) (key : String) : Option String := (v.get key).bind Json.asStr

section Worker
variable (env : TicketEnv) (tables : CatalogTables)

/-- `SELECT s.normalized_json … WHERE p.id = ?1`, parsed. -/
def loadEvent (planRevisionId : Nat) : Except String Json := do
  let row := do
    let p ← tables.plans[planRevisionId]?
    let m ← tables.manifestRevisions[p.manifestRevisionId]?
    let s ← tables.snapshots[m.snapshotId]?
    return s.normalizedJson
  let normalized ← okOr row "cannot load normalized event: Query returned no rows"
  (env.valueFromStr normalized).mapError ("normalized event unreadable: " ++ ·)

/-- `SELECT m.payload … WHERE p.id = ?1`, parsed. -/
def loadPlanManifest (planRevisionId : Nat) : Except String Json := do
  let row := do
    let p ← tables.plans[planRevisionId]?
    let m ← tables.manifestRevisions[p.manifestRevisionId]?
    return m.payload
  let payload ← okOr row
    "invalid_plan: cannot read manifest payload for open event: Query returned no rows"
  (env.valueFromStr payload).mapError ("invalid_plan: manifest payload unreadable for open event: " ++ ·)

/-- The cutoff of an open event, else the end of the source. -/
def analysisEnd (manifest : Json) (stop : String) : Except String String :=
  if manifest.flag "open" then
    okOr (((manifest.field "analysis_end_utc").map trim).filter fun c => !c.isEmpty)
      "invalid_plan: open event requires an explicit analysis cutoff"
  else if trimBlank stop then .error "invalid_plan: event end unavailable"
  else .ok stop

/-- A time as the ticket shows it; a text that is no time stays as it is. -/
def TicketEnv.fmt (ts : String) : String :=
  match env.parseFromRfc3339 ts with
  | some t => env.format t.naiveLocal
  | none => ts

/-- The record of the ticket. -/
def ticketOf (event : Json) (id start stop : String) : Fixture where
  id := id
  title := (event.field "title").getD id
  start := env.fmt start
  stop := env.fmt stop
  ticketType := (event.field "task_type").getD "incident"
  description := (event.field "description").getD ""
  timezone := none

/-- No `timezone` is written. -/
def ticketText (f : Fixture) : String :=
  jsonObject [("description", jsonString f.description), ("end", jsonString f.stop),
    ("id", jsonString f.id), ("start", jsonString f.start), ("title", jsonString f.title),
    ("type", jsonString f.ticketType)]

def normalizedTicket (planRevisionId : Nat) : Except String Fixture := do
  let event ← loadEvent env tables planRevisionId
  let id ← okOr (event.field "id") "invalid_plan: normalized event missing id"
  let start ← okOr (event.field "start") "invalid_plan: normalized event missing start"
  let manifest ← loadPlanManifest env tables planRevisionId
  let stop ← analysisEnd manifest (event.text "end")
  return ticketOf env event id start stop

def genericTicketInput (rawPayload : String) (planRevisionId : Nat) : Except String String :=
  if (parseTicketFixture env rawPayload).isOk then .ok rawPayload
  else (normalizedTicket env tables planRevisionId).map ticketText

end Worker

/-! ## What the parser makes of it -/

section RoundTrip
variable {env : TicketEnv} {tables : CatalogTables} {planRevisionId : Nat} {payload : String}
  {start stop : FixedDateTime} {event : Json}

theorem okOr_ok_iff {o : Option α} {e : String} {a : α} : okOr o e = .ok a ↔ o = some a := by
  cases o <;> simp [okOr]

/-- A snapshot with two times. -/
structure Dated (env : TicketEnv) (tables : CatalogTables) (planRevisionId : Nat) (event : Json)
    (start stop : FixedDateTime) : Prop where
  loaded : loadEvent env tables planRevisionId = .ok event
  start : ∃ s, event.field "start" = some s ∧ env.parseFromRfc3339 s = some start
  stop : ∃ s, event.field "end" = some s ∧ env.parseFromRfc3339 s = some stop

/-- The times a content denotes for the parser. -/
def Denotes (env : TicketEnv) (content : String) (start stop : DateTime) : Prop :=
  ∃ t, parseTicket env content = .ok t ∧ t.window = ⟨start, stop⟩

/-- The times survive, and a payload of the shape of a fixture is used verbatim. -/
def TicketKept (env : TicketEnv) (tables : CatalogTables) (payload : String) (planRevisionId : Nat)
    (start stop : FixedDateTime) : Prop :=
  (∀ out, genericTicketInput env tables payload planRevisionId = .ok out →
    Denotes env out start.instant stop.instant) ∧
  ((∃ t, parseTicket env payload = .ok t) →
    genericTicketInput env tables payload planRevisionId = .ok payload)

/-- What the code relies on: serde_json reads the ticket it wrote, and chrono a clock it wrote, up to
what is below a second. -/
structure TicketEnv.Reads (env : TicketEnv) (tables : CatalogTables) (planRevisionId : Nat) : Prop where
  ticket : ∀ f, normalizedTicket env tables planRevisionId = .ok f →
    env.fixtureFromStr (ticketText f) = .ok f
  clock : ∀ ts t, env.parseFromRfc3339 ts = some t →
    env.parseFromStr (env.format t.naiveLocal) = .ok t.naiveLocal.wholeSecond

/-- The payload is the path of a fixture. -/
def NamesFixture (env : TicketEnv) (payload : String) : Prop :=
  ∃ t, parseTicketFixture env payload = .ok t

/-- The payload has the shape of a fixture. -/
def FixtureShaped (env : TicketEnv) (payload : String) : Prop := ∃ t, parseTicket env payload = .ok t

/-- The texts a ticket is written from. -/
structure TicketTexts (env : TicketEnv) (tables : CatalogTables) (planRevisionId : Nat)
    (event manifest : Json) (id start stop : String) : Prop where
  id : event.field "id" = some id
  start : event.field "start" = some start
  planned : loadPlanManifest env tables planRevisionId = .ok manifest
  stop : analysisEnd manifest (event.text "end") = .ok stop

/-- The end is kept: of a closed event as its start is, of an open one by a cutoff that reads back as
the end of the source. -/
def EndKept (env : TicketEnv) (manifest : Json) (cutoff : String) (stop : FixedDateTime) : Prop :=
  if manifest.flag "open" then
    ∃ t, env.parseFromStr (env.fmt cutoff) = .ok t ∧ t.instant = stop.instant
  else stop.PlainUtc

theorem normalizedTicket_ok_iff (h : loadEvent env tables planRevisionId = .ok event) {f : Fixture} :
    normalizedTicket env tables planRevisionId = .ok f ↔ ∃ manifest id start stop,
      TicketTexts env tables planRevisionId event manifest id start stop ∧
        f = ticketOf env event id start stop := by
  constructor
  · intro hf
    obtain ⟨event', hevent, hf⟩ := bind_ok hf
    obtain rfl : event = event' := Except.ok.inj (h.symm.trans hevent)
    obtain ⟨id, hid, hf⟩ := bind_ok hf
    obtain ⟨start, hstart, hf⟩ := bind_ok hf
    obtain ⟨manifest, hmanifest, hf⟩ := bind_ok hf
    obtain ⟨stop, hstop, hf⟩ := bind_ok hf
    cases hf
    exact ⟨manifest, id, start, stop, ⟨okOr_ok_iff.1 hid, okOr_ok_iff.1 hstart, hmanifest, hstop⟩, rfl⟩
  · rintro ⟨manifest, id, start, stop, ht, rfl⟩
    simp only [normalizedTicket, h, ht.id, ht.start, ht.planned, ht.stop, okOr, bind, Except.bind, pure,
      Except.pure]

/-- Without a timezone the parser reads two clocks as UTC. -/
theorem parseTimeWindow_utc (first last : String) (w : EventWindow) :
    parseTimeWindow env first last none = .ok w ↔ ∃ t u, env.parseFromStr first = .ok t ∧
      env.parseFromStr last = .ok u ∧ w = ⟨t.instant, u.instant⟩ := by
  have hutc (t : NaiveDateTime) : t.andLocalTimezone 0 = some ⟨t, 0⟩ := by
    simp only [NaiveDateTime.andLocalTimezone, Int.sub_zero, t.secs_inRange, if_true]
  have hread (name text : String) (x : FixedDateTime) : readTime env name text none 0 = .ok x ↔
      ∃ t, env.parseFromStr text = .ok t ∧ x = ⟨t, 0⟩ := by
    constructor
    · intro hx
      obtain ⟨t, ht, hx⟩ := bind_ok hx
      rw [hutc] at hx
      exact ⟨t, mapError_ok_iff.1 ht, (Except.ok.inj hx).symm⟩
    · rintro ⟨t, ht, rfl⟩
      unfold readTime
      rw [ht]
      exact congrArg (okOr · _) (hutc t)
  have hinstant (t : NaiveDateTime) : (⟨t, 0⟩ : FixedDateTime).instant = t.instant := by
    simp [FixedDateTime.instant]
  constructor
  · intro h
    obtain ⟨offset, hoff, h⟩ := bind_ok h
    cases hoff
    obtain ⟨x, hx, h⟩ := bind_ok h
    obtain ⟨y, hy, h⟩ := bind_ok h
    cases h
    obtain ⟨t, ht, rfl⟩ := (hread _ _ _).1 hx
    obtain ⟨u, hu, rfl⟩ := (hread _ _ _).1 hy
    exact ⟨t, u, ht, hu, by rw [hinstant, hinstant]⟩
  · rintro ⟨t, u, ht, hu, rfl⟩
    have hx := (hread "start" first _).2 ⟨t, ht, rfl⟩
    have hy := (hread "end" last _).2 ⟨u, hu, rfl⟩
    unfold parseTimeWindow
    simp only [timezoneOffset, bind, Except.bind, hx, hy, pure, Except.pure, hinstant]

/-- A ticket the worker wrote denotes two times when its two texts read back as them. -/
theorem denotes_ticketText_iff {f : Fixture} (hf : env.fixtureFromStr (ticketText f) = .ok f)
    (hutc : f.timezone = none) {a b : DateTime} :
    Denotes env (ticketText f) a b ↔ ∃ t u, env.parseFromStr f.start = .ok t ∧
      env.parseFromStr f.stop = .ok u ∧ t.instant = a ∧ u.instant = b := by
  have hparse (x : Internet2Ticket) : parseTicket env (ticketText f) = .ok x → 
      parseTimeWindow env f.start f.stop none = .ok x.window := by
    intro hx
    obtain ⟨f', hf', hx⟩ := bind_ok hx
    obtain rfl : f = f' := Except.ok.inj (hf.symm.trans (mapError_ok_iff.1 hf'))
    obtain ⟨w, hw, hx⟩ := bind_ok hx
    cases hx
    rwa [hutc] at hw
  constructor
  · rintro ⟨x, hx, hwindow⟩
    obtain ⟨t, u, ht, hu, hw⟩ := (parseTimeWindow_utc _ _ _).1 (hparse x hx)
    obtain ⟨rfl, rfl⟩ := EventWindow.mk.inj (hwindow.symm.trans hw)
    exact ⟨t, u, ht, hu, rfl, rfl⟩
  · rintro ⟨t, u, ht, hu, rfl, rfl⟩
    have hw := (parseTimeWindow_utc _ _ _).2 ⟨t, u, ht, hu, rfl⟩
    simp only [Denotes, parseTicket, hf, hutc, hw, Except.mapError, bind, Except.bind, pure, Except.pure,
      Except.ok.injEq, exists_eq_left']

theorem fmt_read (hreads : env.Reads tables planRevisionId) {ts : String} {t : FixedDateTime}
    (h : env.parseFromRfc3339 ts = some t) :
    env.parseFromStr (env.fmt ts) = .ok t.naiveLocal.wholeSecond := by
  unfold TicketEnv.fmt
  rw [h]
  exact hreads.clock ts t h

/-- The end of a closed event is the end of its source. -/
theorem analysisEnd_closed {manifest : Json} {stop last : String}
    (hopen : manifest.flag "open" = false) (h : analysisEnd manifest stop = .ok last) : last = stop := by
  unfold analysisEnd at h
  rw [if_neg (by simp [hopen])] at h
  split at h
  · cases h
  · exact (Except.ok.inj h).symm

/-- **A written ticket** keeps the two times exactly when they are plain UTC. -/
theorem ticketOf_denotes_iff (hreads : env.Reads tables planRevisionId)
    (hdated : Dated env tables planRevisionId event start stop) {manifest : Json}
    {id first last : String} (ht : TicketTexts env tables planRevisionId event manifest id first last) :
    Denotes env (ticketText (ticketOf env event id first last)) start.instant stop.instant ↔
      start.PlainUtc ∧ EndKept env manifest last stop := by
  have hf := hreads.ticket _ ((normalizedTicket_ok_iff hdated.loaded).2 ⟨_, _, _, _, ht, rfl⟩)
  rw [denotes_ticketText_iff hf rfl]
  -- the start that is written is the one that was parsed
  obtain ⟨s, hs, hstart⟩ := hdated.start
  obtain rfl : first = s := Option.some.inj (ht.start.symm.trans hs)
  have hfirst : env.parseFromStr (ticketOf env event id first last).start =
      .ok start.naiveLocal.wholeSecond := fmt_read hreads hstart
  have hend : EndKept env manifest last stop ↔
      ∃ u, env.parseFromStr (env.fmt last) = .ok u ∧ u.instant = stop.instant := by
    unfold EndKept
    split
    · exact Iff.rfl
    · next hopen =>
      obtain ⟨e, he, hstop⟩ := hdated.stop
      have htext : event.text "end" = e := congrArg (Option.getD · "") he
      obtain rfl : last = e := (analysisEnd_closed (by simpa using hopen) ht.stop).trans htext
      rw [← stop.wholeSecond_instant_iff, fmt_read hreads hstop]
      simp
  rw [hend, ← start.wholeSecond_instant_iff, hfirst]
  constructor
  · rintro ⟨t, u, ht, hu, ht', hu'⟩
    obtain rfl := Except.ok.inj ht
    exact ⟨ht', u, hu, hu'⟩
  · rintro ⟨ht', u, hu, hu'⟩
    exact ⟨_, u, rfl, hu, ht', hu'⟩

/-- When a ticket input keeps what the snapshot says. A payload that happens to be the path of a
fixture is handed on, so it has to be a fixture with the same times itself. Any other is replaced: the
times have to be plain UTC, and a fixture has to be, to the byte, the text that replaces it. -/
def TicketSound (env : TicketEnv) (tables : CatalogTables) (payload : String) (planRevisionId : Nat)
    (event : Json) (start stop : FixedDateTime) : Prop :=
  (NamesFixture env payload → Denotes env payload start.instant stop.instant) ∧
  (¬NamesFixture env payload →
    (∀ manifest id first last, TicketTexts env tables planRevisionId event manifest id first last →
      start.PlainUtc ∧ EndKept env manifest last stop) ∧
    (FixtureShaped env payload → ∃ manifest id first last,
      TicketTexts env tables planRevisionId event manifest id first last ∧
        payload = ticketText (ticketOf env event id first last)))

theorem genericTicketInput_names (h : NamesFixture env payload) :
    genericTicketInput env tables payload planRevisionId = .ok payload := by
  obtain ⟨t, ht⟩ := h
  unfold genericTicketInput
  rw [ht]
  rfl

theorem genericTicketInput_written (h : ¬NamesFixture env payload)
    (hevent : loadEvent env tables planRevisionId = .ok event) {out : String} :
    genericTicketInput env tables payload planRevisionId = .ok out ↔ ∃ manifest id first last,
      TicketTexts env tables planRevisionId event manifest id first last ∧
        out = ticketText (ticketOf env event id first last) := by
  have hpath : (parseTicketFixture env payload).isOk = false := by
    cases ht : parseTicketFixture env payload with
    | error => rfl
    | ok t => exact absurd ⟨t, ht⟩ h
  unfold genericTicketInput
  rw [hpath, if_neg (by decide)]
  constructor
  · intro hout
    obtain ⟨f, hf, rfl⟩ := map_ok hout
    obtain ⟨manifest, id, first, last, ht, rfl⟩ := (normalizedTicket_ok_iff hevent).1 hf
    exact ⟨manifest, id, first, last, ht, rfl⟩
  · rintro ⟨manifest, id, first, last, ht, rfl⟩
    rw [(normalizedTicket_ok_iff hevent).2 ⟨manifest, id, first, last, ht, rfl⟩]
    rfl

/-- **Bug**: the offset of the source is dropped, and the content of the payload is opened as a file.
The input keeps the times, and the fixture, of exactly these snapshots. -/
theorem ticketKept_iff (hreads : env.Reads tables planRevisionId)
    (hdated : Dated env tables planRevisionId event start stop) :
    TicketKept env tables payload planRevisionId start stop ↔
      TicketSound env tables payload planRevisionId event start stop := by
  by_cases hnames : NamesFixture env payload
  · have hout : genericTicketInput env tables payload planRevisionId = .ok payload :=
      genericTicketInput_names hnames
    constructor
    · rintro ⟨hkept, -⟩
      exact ⟨fun _ => hkept _ hout, fun h => absurd hnames h⟩
    · rintro ⟨hsound, -⟩
      refine ⟨fun out h => ?_, fun _ => hout⟩
      obtain rfl := Except.ok.inj (hout.symm.trans h)
      exact hsound hnames
  · have hwritten {out : String} : genericTicketInput env tables payload planRevisionId = .ok out ↔ _ :=
      genericTicketInput_written hnames hdated.loaded
    constructor
    · rintro ⟨hkept, hpass⟩
      refine ⟨fun h => absurd h hnames, fun _ => ⟨fun manifest id first last ht => ?_, fun h => ?_⟩⟩
      · exact (ticketOf_denotes_iff hreads hdated ht).1
          (hkept _ (hwritten.2 ⟨manifest, id, first, last, ht, rfl⟩))
      · exact hwritten.1 (hpass h)
    · rintro ⟨-, hsound⟩
      obtain ⟨htimes, hshape⟩ := hsound hnames
      refine ⟨fun out h => ?_, fun h => hwritten.2 (hshape h)⟩
      obtain ⟨manifest, id, first, last, ht, rfl⟩ := hwritten.1 h
      exact (ticketOf_denotes_iff hreads hdated ht).2 (htimes manifest id first last ht)

end RoundTrip

/-! ### An event at four o'clock -/

namespace TicketSample

/-- Four and five o'clock of 2026-06-18. -/
def four : NaiveDateTime := ⟨1781755200, 0, by decide, by decide⟩
def five : NaiveDateTime := ⟨1781758800, 0, by decide, by decide⟩

def times (zone : String) : List (String × String) :=
  [("end", "2026-06-18T05:00:00" ++ zone), ("id", "CHG1"), ("start", "2026-06-18T04:00:00" ++ zone)]

def eventText (zone : String) : String :=
  jsonObject ((times zone).map fun f => (f.1, jsonString f.2))

def eventValue (zone : String) : Json := .obj ((times zone).map fun f => (f.1, .str f.2))

def manifestText : String := jsonObject [("open", "false")]

def ticket : Fixture :=
  ⟨"CHG1", "CHG1", "2026-06-18 04:00:00", "2026-06-18 05:00:00", "incident", "", none⟩

/-- A ticket with a timezone of its own. -/
def fixtureText : String := jsonObject [("end", jsonString "2026-06-18 05:00:00"),
  ("id", jsonString "CHG1"), ("start", jsonString "2026-06-18 04:00:00"), ("timezone", jsonString "EDT"),
  ("title", jsonString "CHG1"), ("type", jsonString "incident")]

def env : TicketEnv where
  readToString _ := .error "No such file or directory (os error 2)"
  fixtureFromStr text :=
    if text = ticketText ticket then .ok ticket
    else if text = fixtureText then .ok { ticket with timezone := some "EDT" }
    else .error "missing field"
  valueFromStr text :=
    if text = eventText "-04:00" then .ok (eventValue "-04:00")
    else if text = eventText "Z" then .ok (eventValue "Z")
    else if text = manifestText then .ok (.obj [("open", .bool false)])
    else .error "expected value at line 1 column 1"
  parseFromRfc3339 ts :=
    if ts = "2026-06-18T04:00:00-04:00" then some ⟨four, -14400⟩
    else if ts = "2026-06-18T05:00:00-04:00" then some ⟨five, -14400⟩
    else if ts = "2026-06-18T04:00:00Z" then some ⟨four, 0⟩
    else if ts = "2026-06-18T05:00:00Z" then some ⟨five, 0⟩
    else none
  format t := if t.secs = four.secs then "2026-06-18 04:00:00" else "2026-06-18 05:00:00"
  parseFromStr text :=
    if text = "2026-06-18 04:00:00" then .ok four
    else if text = "2026-06-18 05:00:00" then .ok five
    else .error "input contains invalid characters"

/-- A snapshot with offsets and one in UTC, each with a plan. -/
def tables : CatalogTables where
  events := []
  snapshots := [⟨0, "", "", "", "", eventText "-04:00", ""⟩, ⟨0, "", "", "", "", eventText "Z", ""⟩]
  manifestRevisions := [⟨0, 0, 1, manifestText, "", "", none, none⟩,
    ⟨0, 1, 1, manifestText, "", "", none, none⟩]
  plans := [⟨0, 1, "", "", "", none, ""⟩, ⟨1, 1, "", "", "", none, ""⟩]

theorem ticket_reads : env.fixtureFromStr (ticketText ticket) = .ok ticket := by decide +kernel

/-- Four o'clock in New York is read as four o'clock UTC, and a fixture is replaced. -/
theorem offset_lost :
    ¬TicketKept env tables "\x7b\x7d" 0 ⟨four, -14400⟩ ⟨five, -14400⟩ ∧
    FixtureShaped env fixtureText ∧ genericTicketInput env tables fixtureText 0 ≠ .ok fixtureText := by
  have hout : genericTicketInput env tables "\x7b\x7d" 0 = .ok (ticketText ticket) := by
    decide +kernel
  refine ⟨fun h => ?_, ?_, by decide +kernel⟩
  · obtain ⟨t, u, ht, -, hfour, -⟩ := (denotes_ticketText_iff ticket_reads rfl).1 (h.1 _ hout)
    obtain rfl : four = t := Except.ok.inj ht
    exact absurd hfour (by decide)
  · exact ⟨_, rfl⟩

theorem reads : env.Reads tables 1 where
  ticket f hf := by
    have hticket : normalizedTicket env tables 1 = .ok ticket := by decide +kernel
    obtain rfl : ticket = f := Except.ok.inj (hticket.symm.trans hf)
    exact ticket_reads
  clock ts t ht := by
    have hcases : t.naiveLocal = four ∨ t.naiveLocal = five := by
      simp only [env] at ht
      split_ifs at ht <;> cases ht <;> simp
    rcases hcases with h | h <;> rw [h] <;> rfl

/-- The same event written in UTC. -/
theorem ticketKept_utc : TicketKept env tables "\x7b\x7d" 1 ⟨four, 0⟩ ⟨five, 0⟩ := by
  have hdated : Dated env tables 1 (eventValue "Z") ⟨four, 0⟩ ⟨five, 0⟩ :=
    ⟨rfl, ⟨_, rfl, rfl⟩, ⟨_, rfl, rfl⟩⟩
  refine (ticketKept_iff reads hdated).2 ⟨?_, fun _ => ⟨?_, ?_⟩⟩
  · rintro ⟨t, ht⟩
    cases ht
  · intro manifest id first last ht
    obtain rfl : Json.obj [("open", .bool false)] = manifest :=
      Except.ok.inj (Eq.trans rfl ht.planned)
    exact ⟨by decide, by change FixedDateTime.PlainUtc _; decide⟩
  · rintro ⟨t, ht⟩
    cases ht

end TicketSample

end Inim
