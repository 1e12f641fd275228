import SiteProfiler.Profile.Delivery

/-!
# Exports to a failing sink

A sink with room for some number of bytes takes the first bytes of an export, as many as it has
room for, whether the export is written at once or piece by piece, and however few bytes the sink
takes at a time.  The first offer of which it takes nothing is the last.
-/

namespace SiteProfiler

/-- The failure that a full sink causes. -/
def WhenFull.failure : WhenFull → WriteFailure
  | fails reason => .refused reason
  | stalls => .stalled

namespace Sink

/-- The sink after it took some bytes. -/
def take (sink : Sink) (bytes : List UInt8) : Sink := { sink with taken := sink.taken ++ bytes }

/-- The sink after an offer of which it took nothing. -/
def refuse (sink : Sink) : Sink := { sink with refusals := sink.refusals + 1 }

theorem take_nil (sink : Sink) : sink.take [] = sink := by
  simp [take]

theorem take_take (sink : Sink) (bytes more : List UInt8) :
    (sink.take bytes).take more = sink.take (bytes ++ more) := by
  have hTaken : sink.taken ++ bytes ++ more = sink.taken ++ (bytes ++ more) :=
    Array.ext' (by simp)
  simp only [take, hTaken]

theorem room_le (sink : Sink) (wanted : Nat) : sink.room wanted ≤ wanted := by
  rw [room]
  split
  · exact Nat.le_refl wanted
  · exact Nat.min_le_left wanted _

theorem room_eq_min (sink : Sink) (wanted more : Nat) :
    sink.room wanted = min wanted (sink.room (wanted + more)) := by
  simp only [room]
  split <;> omega

theorem room_take (sink : Sink) (bytes : List UInt8) (more : Nat) :
    (sink.take bytes).room more = sink.room (bytes.length + more) - bytes.length := by
  have hSize : (sink.taken ++ bytes).size = sink.taken.size + bytes.length := by
    rw [← Array.length_toList, Array.toList_appendList, List.length_append, Array.length_toList]
  simp only [room, take, hSize]
  split <;> omega

theorem write_of_room {sink : Sink} {bytes : List UInt8}
    (hRoom : sink.room bytes.length = bytes.length) :
    sink.write bytes = (.ok (), sink.take bytes) := by
  rw [write, hRoom, List.take_length, if_pos rfl, take]

theorem write_of_lack {sink : Sink} {bytes : List UInt8}
    (hRoom : sink.room bytes.length < bytes.length) :
    sink.write bytes = (.error sink.whenFull.failure,
      (sink.take (bytes.take (sink.room bytes.length))).refuse) := by
  rw [write, if_neg (Nat.ne_of_lt hRoom)]
  cases hFull : sink.whenFull <;> simp [take, refuse, WhenFull.failure, hFull]

theorem write_append (sink : Sink) (bytes more : List UInt8) :
    sink.write (bytes ++ more) =
      match sink.write bytes with
      | (.ok (), fed) => fed.write more
      | (.error failure, fed) => (.error failure, fed) := by
  have hLength : (bytes ++ more).length = bytes.length + more.length := List.length_append
  have hFirst := sink.room_eq_min bytes.length more.length
  have hRest := sink.room_take bytes more.length
  have hWhole := sink.room_le (bytes.length + more.length)
  rcases Nat.lt_or_ge (sink.room (bytes.length + more.length)) bytes.length with hLack | hRoom
  · -- The sink is full before the first bytes end.
    have hSame : sink.room bytes.length = sink.room (bytes ++ more).length := by
      rw [hLength]
      omega
    rw [write_of_lack (by omega : sink.room bytes.length < bytes.length),
      write_of_lack (by rw [hLength]; omega), hSame, hLength,
      List.take_append_of_le_length (Nat.le_of_lt hLack)]
  · -- The first bytes fit, and the others meet the room that is left.
    rw [write_of_room (by omega : sink.room bytes.length = bytes.length)]
    dsimp only
    rcases Nat.lt_or_ge (sink.room (bytes.length + more.length)) (bytes.length + more.length) with
      hLack | hFits
    · rw [write_of_lack (by rw [hLength]; omega), write_of_lack (by omega), take_take, hRest,
        hLength, List.take_append, List.take_of_length_le hRoom]
      rfl
    · rw [write_of_room (by rw [hLength]; omega), write_of_room (by omega), take_take]

theorem write_nil (sink : Sink) : sink.write [] = (.ok (), sink) := by
  have hRoom : sink.room 0 = 0 := Nat.le_zero.mp (sink.room_le 0)
  rw [write_of_room hRoom, take_nil]

/-- Bytes for which there is room may be taken first. -/
theorem write_of_le_room {sink : Sink} {bytes : List UInt8} {count : Nat}
    (hCount : count ≤ sink.room bytes.length) :
    sink.write bytes = (sink.take (bytes.take count)).write (bytes.drop count) := by
  have hLength : (bytes.take count).length + (bytes.drop count).length = bytes.length := by
    rw [← List.length_append, List.take_append_drop]
  have hRoom := sink.room_eq_min (bytes.take count).length (bytes.drop count).length
  rw [hLength, List.length_take] at hRoom
  have hFits : sink.room (bytes.take count).length = (bytes.take count).length := by
    rw [List.length_take, hRoom]
    omega
  have hWrite := sink.write_append (bytes.take count) (bytes.drop count)
  rwa [List.take_append_drop, write_of_room hFits] at hWrite

theorem write_of_room_eq_zero {sink : Sink} {bytes : List UInt8} (hSome : bytes ≠ [])
    (hFull : sink.room bytes.length = 0) :
    sink.write bytes = (.error sink.whenFull.failure, sink.refuse) := by
  rw [write_of_lack (hFull ▸ List.length_pos_iff.mpr hSome), hFull, List.take_zero, take_nil]

/-- Bytes that are written piece by piece are taken, or refused, as when they are written at
once. -/
theorem writePieces_eq (sink : Sink) (pieces : List (List UInt8)) :
    sink.writePieces pieces = sink.write pieces.flatten := by
  induction pieces generalizing sink with
  | nil => rw [writePieces, List.flatten_nil, write_nil]
  | cons piece rest ih =>
    rw [writePieces, List.flatten_cons, write_append]
    generalize sink.write piece = written
    obtain ⟨outcome, fed⟩ := written
    cases outcome with
    | ok => exact ih fed
    | error failure => rfl

theorem write_unlimited (bytes : List UInt8) :
    unlimited.write bytes = (.ok (), unlimited.take bytes) :=
  write_of_room rfl

theorem write_limited {limit : Nat} {whenFull : WhenFull} {bytes : List UInt8}
    (hFits : bytes.length ≤ limit) :
    (limited limit whenFull).write bytes = (.ok (), (limited limit whenFull).take bytes) :=
  write_of_room (Nat.min_eq_left hFits)

theorem write_limited_of_lt {limit : Nat} {whenFull : WhenFull} {bytes : List UInt8}
    (hLong : limit < bytes.length) :
    (limited limit whenFull).write bytes = (.error whenFull.failure,
      ((limited limit whenFull).take (bytes.take limit)).refuse) := by
  have hRoom : (limited limit whenFull).room bytes.length = limit :=
    Nat.min_eq_right (Nat.le_of_lt hLong)
  rw [write_of_lack (by rw [hRoom]; exact hLong), hRoom]
  rfl

theorem take_unlimited (bytes : List UInt8) :
    unlimited.take bytes = { unlimited with taken := bytes.toArray } := by
  simp [take, unlimited]

theorem toList_take_limited (limit : Nat) (whenFull : WhenFull) (bytes : List UInt8) :
    ((limited limit whenFull).take bytes).taken.toList = bytes := by
  rw [take, Array.toList_appendList]
  rfl

end Sink

/-! ## Offer by offer -/

/-- An offer of some bytes, and how many of them the sink took. -/
structure Offer where
  bytes : List UInt8
  taken : Nat
deriving DecidableEq, Repr

/-- Something was taken of each offer, but for the last one if it failed. -/
def OnlyLastFails : Except WriteFailure Unit → List Offer → Prop
  | .ok (), offers => ∀ offer ∈ offers, offer.taken ≠ 0
  | .error _, offers => ∃ earlier last, offers = earlier ++ [last] ∧
      (∀ offer ∈ earlier, offer.taken ≠ 0) ∧ last.taken = 0

/-- A sink, and the offers made to it so far. -/
structure Watched where
  sink : Sink
  offers : List Offer

namespace Watched

/-- How much the sink takes of an offer: something if it is not full, but perhaps less than it has
room for.  The pace bounds what it takes of each offer beyond the first byte. -/
def taking (pace : Nat → Nat) (watched : Watched) (bytes : List UInt8) : Nat :=
  min (watched.sink.room bytes.length) (pace watched.offers.length + 1)

/-- The sink after one offer. -/
def offer (pace : Nat → Nat) (watched : Watched) (bytes : List UInt8) : Watched where
  sink :=
    if watched.taking pace bytes = 0 then watched.sink.refuse
    else watched.sink.take (bytes.take (watched.taking pace bytes))
  offers := watched.offers ++ [⟨bytes, watched.taking pace bytes⟩]

/-- Offers what is left until all of it is taken, or nothing of an offer is. -/
def write (pace : Nat → Nat) (watched : Watched) (bytes : List UInt8) :
    Except WriteFailure Unit × Watched :=
  if bytes = [] then (.ok (), watched)
  else if watched.taking pace bytes = 0 then
    (.error watched.sink.whenFull.failure, watched.offer pace bytes)
  else (watched.offer pace bytes).write pace (bytes.drop (watched.taking pace bytes))
termination_by bytes.length
decreasing_by
  rename_i hSome hTaken
  have := List.length_pos_iff.mpr hSome
  rw [List.length_drop]
  omega

def writePieces (pace : Nat → Nat) (watched : Watched) :
    List (List UInt8) → Except WriteFailure Unit × Watched
  | [] => (.ok (), watched)
  | piece :: rest =>
    match watched.write pace piece with
    | (.ok (), fed) => fed.writePieces pace rest
    | (.error failure, fed) => (.error failure, fed)

/-- Offer by offer, this is what happened: the outcome, the sink, and where an offer failed. -/
structure Ends (result : Except WriteFailure Unit × Watched)
    (expected : Except WriteFailure Unit × Sink) : Prop where
  outcome : result.1 = expected.1
  sink : result.2.sink = expected.2
  onlyLastFails : OnlyLastFails result.1 result.2.offers

theorem taken_offer {pace : Nat → Nat} {watched : Watched} {bytes : List UInt8}
    (hTaken : ∀ offer ∈ watched.offers, offer.taken ≠ 0)
    (hTaking : watched.taking pace bytes ≠ 0) :
    ∀ offer ∈ (watched.offer pace bytes).offers, offer.taken ≠ 0 := by
  intro offer hMem
  rcases List.mem_append.mp hMem with hOld | hNew
  · exact hTaken offer hOld
  · rw [List.mem_singleton.mp hNew]
    exact hTaking

theorem ends_write (pace : Nat → Nat) {watched : Watched} (bytes : List UInt8)
    (hTaken : ∀ offer ∈ watched.offers, offer.taken ≠ 0) :
    Ends (watched.write pace bytes) (watched.sink.write bytes) := by
  fun_induction write pace watched bytes with
  | case1 watched =>
    rw [Sink.write_nil]
    exact ⟨rfl, rfl, hTaken⟩
  | case2 watched bytes hSome hNone =>
    have hFull : watched.sink.room bytes.length = 0 := by
      rw [taking] at hNone
      omega
    rw [Sink.write_of_room_eq_zero hSome hFull]
    exact ⟨rfl, if_pos hNone, watched.offers, _, rfl, hTaken, hNone⟩
  | case3 watched bytes hSome hSomething ih =>
    -- What was taken fitted, so the rest is to the sink after it what the whole was before.
    have hNext : (watched.offer pace bytes).sink =
        watched.sink.take (bytes.take (watched.taking pace bytes)) := if_neg hSomething
    have hRoom : watched.taking pace bytes ≤ watched.sink.room bytes.length := Nat.min_le_left _ _
    rw [Sink.write_of_le_room hRoom, ← hNext]
    exact ih (taken_offer hTaken hSomething)

theorem ends_writePieces (pace : Nat → Nat) {watched : Watched} (pieces : List (List UInt8))
    (hTaken : ∀ offer ∈ watched.offers, offer.taken ≠ 0) :
    Ends (watched.writePieces pace pieces) (watched.sink.writePieces pieces) := by
  induction pieces generalizing watched with
  | nil => exact ⟨rfl, rfl, hTaken⟩
  | cons piece rest ih =>
    have hPiece := ends_write pace piece hTaken
    rw [writePieces, Sink.writePieces]
    generalize watched.write pace piece = written at hPiece ⊢
    generalize watched.sink.write piece = expected at hPiece ⊢
    obtain ⟨outcome, fed⟩ := written
    obtain ⟨_, _⟩ := expected
    obtain ⟨rfl, rfl, hOffers⟩ := hPiece
    cases outcome with
    | ok => exact ih hOffers
    | error failure => exact ⟨rfl, rfl, hOffers⟩

end Watched

/-! ## Exports -/

/-- What an export of these bytes comes to, however much room its sink has: the sink receives the
first of them up to its limit, and the export succeeds if that is all of them and otherwise reports
the failure of the sink.  It is the same however the bytes are cut into pieces and at whatever pace
the sink takes them, and no offer follows one of which nothing was taken. -/
structure Delivers (deliver : Sink → Except DeliveryError Unit × Sink)
    (report : WriteFailure → DeliveryError) (bytes : List UInt8) : Prop where
  whole : deliver .unlimited = (.ok (), { Sink.unlimited with taken := bytes.toArray })
  taken_eq : ∀ limit whenFull,
    (deliver (.limited limit whenFull)).2.taken.toList = bytes.take limit
  ok_iff : ∀ limit whenFull,
    (deliver (.limited limit whenFull)).1 = .ok () ↔ bytes.length ≤ limit
  error_eq : ∀ limit whenFull, limit < bytes.length →
    (deliver (.limited limit whenFull)).1 = .error (report whenFull.failure)
  refusals_eq : ∀ limit whenFull,
    (deliver (.limited limit whenFull)).2.refusals = if bytes.length ≤ limit then 0 else 1
  offers : ∀ pieces : List (List UInt8), pieces.flatten = bytes →
    ∀ (pace : Nat → Nat) (sink : Sink),
      let watched := Watched.writePieces pace ⟨sink, []⟩ pieces
      deliver sink = (watched.1.mapError report, watched.2.sink) ∧
        OnlyLastFails watched.1 watched.2.offers

theorem delivers_of_write {deliver : Sink → Except DeliveryError Unit × Sink}
    {report : WriteFailure → DeliveryError} {bytes : List UInt8}
    (hWrite : ∀ sink, deliver sink =
      ((sink.write bytes).1.mapError report, (sink.write bytes).2)) :
    Delivers deliver report bytes := by
  have hFits (limit : Nat) (whenFull : WhenFull) (hRoom : bytes.length ≤ limit) :
      deliver (.limited limit whenFull) = (.ok (), (Sink.limited limit whenFull).take bytes) := by
    rw [hWrite, Sink.write_limited hRoom]
    rfl
  have hCut (limit : Nat) (whenFull : WhenFull) (hLack : limit < bytes.length) :
      deliver (.limited limit whenFull) = (.error (report whenFull.failure),
        ((Sink.limited limit whenFull).take (bytes.take limit)).refuse) := by
    rw [hWrite, Sink.write_limited_of_lt hLack]
    rfl
  constructor
  case whole =>
    rw [hWrite, Sink.write_unlimited, Sink.take_unlimited]
    rfl
  case taken_eq =>
    intro limit whenFull
    rcases Nat.lt_or_ge limit bytes.length with hLack | hRoom
    · rw [hCut limit whenFull hLack, Sink.refuse, Sink.toList_take_limited]
    · rw [hFits limit whenFull hRoom, Sink.toList_take_limited, List.take_of_length_le hRoom]
  case ok_iff =>
    intro limit whenFull
    rcases Nat.lt_or_ge limit bytes.length with hLack | hRoom
    · simp [hCut limit whenFull hLack, hLack]
    · simp [hFits limit whenFull hRoom, hRoom]
  case error_eq =>
    intro limit whenFull hLack
    rw [hCut limit whenFull hLack]
  case refusals_eq =>
    intro limit whenFull
    rcases Nat.lt_or_ge limit bytes.length with hLack | hRoom
    · rw [hCut limit whenFull hLack, if_neg (Nat.not_le_of_lt hLack)]
      rfl
    · rw [hFits limit whenFull hRoom, if_pos hRoom]
      rfl
  case offers =>
    rintro pieces rfl pace sink
    have hEnds : Watched.Ends (Watched.writePieces pace ⟨sink, []⟩ pieces)
        (sink.writePieces pieces) :=
      Watched.ends_writePieces pace pieces (List.forall_mem_nil _)
    obtain ⟨hOutcome, hSink, hOffers⟩ := hEnds
    exact ⟨by rw [hWrite, hOutcome, hSink, Sink.writePieces_eq], hOffers⟩

theorem textBytes_append (first second : String) :
    textBytes (first ++ second) = textBytes first ++ textBytes second := by
  rw [textBytes, String.toByteArray_append, ByteArray.data_append, Array.toList_append]
  rfl

theorem flatten_map_textBytes (pieces : CompactJson.Pieces) :
    (pieces.map textBytes).flatten = textBytes (CompactJson.text pieces) := by
  induction pieces with
  | nil => rfl
  | cons piece rest ih =>
    rw [List.map_cons, List.flatten_cons, ih, ← textBytes_append, CompactJson.text,
      CompactJson.text, String.join_cons]

theorem delivers_json (pieces : CompactJson.Pieces) :
    Delivers (deliverJson pieces) .json (textBytes (CompactJson.text pieces)) := by
  refine delivers_of_write fun sink => ?_
  rw [deliverJson, Sink.writePieces_eq, flatten_map_textBytes]

theorem delivers_profile (profile : Pprof.Profile) :
    Delivers (deliverProfile profile) .io profile.encode :=
  delivers_of_write fun _ => rfl

/-- An export to a sink that fails: what the sink receives, what is reported, and that nothing
is offered after the failure. -/
theorem failing_sink_takes_first_bytes :
    (∀ snapshot : MemSnapshot,
      Delivers snapshot.exportJson .json (textBytes (CompactJson.text snapshot.json)) ∧
      Delivers snapshot.exportPprof .io snapshot.profile.encode) ∧
    ∀ snapshot : BlockSnapshot,
      Delivers snapshot.exportJson .json (textBytes (CompactJson.text snapshot.json)) ∧
      Delivers snapshot.exportPprof .io snapshot.profile.encode :=
  ⟨fun snapshot => ⟨delivers_json snapshot.json, delivers_profile snapshot.profile⟩,
    fun snapshot => ⟨delivers_json snapshot.json, delivers_profile snapshot.profile⟩⟩

end SiteProfiler
