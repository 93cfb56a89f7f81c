import SdvZone.SdPackets

/-! The receive loop of `discover`. Over the datagrams it accepts it is one list of assignments to
`results`; a datagram rejected with a `ValueError` leaves no trace, and the one kind of datagram that
is not ends the call. -/

namespace SdvZone.Mpu

open Wire

/-! ### The loop as a list of assignments -/

section Assignments

variable (findServiceId findInstanceId : Nat)

/-- What the entries of a packet assign, in order. -/
def updates (parsed : SdInfo) : List ((Nat × Nat) × ServiceRecord) :=
  parsed.entries.filterMap (SdClient.entryUpdate findServiceId findInstanceId parsed.options)

theorem collect_eq (results : Results) (parsed : SdInfo) :
    SdClient.collect findServiceId findInstanceId results parsed =
      results.setAll (updates findServiceId findInstanceId parsed) := by
  unfold SdClient.collect updates
  generalize parsed.entries = entries
  induction entries generalizing results with
  | nil => rfl
  | cons entry rest ih =>
      rw [List.foldl_cons, ih]
      cases hupdate : SdClient.entryUpdate findServiceId findInstanceId parsed.options entry with
      | none => rw [List.filterMap_cons_none hupdate]
      | some update =>
          rw [List.filterMap_cons_some hupdate]
          rfl

/-- `results` after some packets: their assignments, in order. -/
theorem foldl_collect (infos : List SdInfo) (results : Results) :
    infos.foldl (SdClient.collect findServiceId findInstanceId) results =
      results.setAll (infos.flatMap (updates findServiceId findInstanceId)) := by
  induction infos generalizing results with
  | nil => rfl
  | cons info rest ih =>
      rw [List.foldl_cons, ih, collect_eq, List.flatMap_cons, OrderedDict.setAll_append]

/-- What is received, when every datagram is accepted. -/
theorem receive_accepted {datagrams : List Bytes} {infos : List SdInfo}
    (h : (datagrams.map SdClient.recvfrom).mapM parseSd = .ok infos) (results : Results) :
    (datagrams.map SdClient.recvfrom).foldlM (SdClient.receive findServiceId findInstanceId) results =
      .ok (results.setAll (infos.flatMap (updates findServiceId findInstanceId))) := by
  induction datagrams generalizing infos results with
  | nil =>
      cases h
      rfl
  | cons datagram rest ih =>
      obtain ⟨info, later, hparse, hrest, rfl⟩ := mapM_cons_ok h
      rw [List.map_cons, List.foldlM_cons, SdClient.receive, hparse]
      simp only [bind, Except.bind]
      rw [ih hrest, collect_eq, List.flatMap_cons, OrderedDict.setAll_append]

end Assignments

/-- `discover` is its receive loop. -/
theorem discover_eq (serviceId instanceId : Option Nat) (datagrams : List Bytes) :
    SdClient.discover serviceId instanceId datagrams =
      ((datagrams.map SdClient.recvfrom).foldlM
        (SdClient.receive (serviceId.getD 0xFFFF) (instanceId.getD 0xFFFF)) .empty).map
          OrderedDict.values := by
  rw [SdClient.discover, buildFindService_eq]
  simp only [bind, Except.bind]
  cases (datagrams.map SdClient.recvfrom).foldlM
    (SdClient.receive (serviceId.getD 0xFFFF) (instanceId.getD 0xFFFF)) OrderedDict.empty <;> rfl

/-- Over accepted datagrams `discover` returns the values of the assignments its entries make. -/
theorem discover_accepted (serviceId instanceId : Option Nat) {datagrams : List Bytes}
    {infos : List SdInfo} (h : (datagrams.map SdClient.recvfrom).mapM parseSd = .ok infos) :
    SdClient.discover serviceId instanceId datagrams =
      .ok ((OrderedDict.empty.setAll (infos.flatMap
        (updates (serviceId.getD 0xFFFF) (instanceId.getD 0xFFFF)))).values) := by
  rw [discover_eq, receive_accepted _ _ h]
  rfl

/-! ### Malformed datagrams -/

/-- A datagram that is rejected with a `ValueError` might as well not have arrived. -/
theorem discover_skips {datagram : Bytes} {message : String}
    (h : parseSd (SdClient.recvfrom datagram) = .error (.valueError message))
    (serviceId instanceId : Option Nat) (before after : List Bytes) :
    SdClient.discover serviceId instanceId (before ++ datagram :: after) =
      SdClient.discover serviceId instanceId (before ++ after) := by
  have hskip : ∀ results,
      SdClient.receive (serviceId.getD 0xFFFF) (instanceId.getD 0xFFFF) results
        (SdClient.recvfrom datagram) = .ok results := by
    intro results
    rw [SdClient.receive, h]
  rw [discover_eq, discover_eq, List.map_append, List.map_cons, List.map_append, List.foldlM_append,
    List.foldlM_append]
  congr 2
  funext results
  rw [List.foldlM_cons, hskip]
  rfl

theorem recvfrom_bareHeader {datagram : Bytes} :
    BareHeader (SdClient.recvfrom datagram) ↔ BareHeader datagram := by
  unfold SdClient.recvfrom BareHeader SdHeader
  rw [slice_take datagram (by decide), slice_take datagram (by decide), slice_take datagram (by decide),
    List.length_take]
  constructor
  · rintro ⟨hlength, hheader⟩
    exact ⟨by omega, hheader⟩
  · rintro ⟨hlength, hheader⟩
    exact ⟨by omega, hheader⟩

/-- The packets that are accepted as they are received. -/
def accepted (datagrams : List Bytes) : List SdInfo :=
  datagrams.filterMap fun datagram => (parseSd (SdClient.recvfrom datagram)).toOption

/-- `discover` returns what the accepted packets leave in `results`, unless a bare header comes in. -/
theorem discover_collects (serviceId instanceId : Option Nat) {datagrams : List Bytes}
    (h : ∀ datagram ∈ datagrams, ¬BareHeader datagram) :
    SdClient.discover serviceId instanceId datagrams =
      .ok ((accepted datagrams).foldl
        (SdClient.collect (serviceId.getD 0xFFFF) (instanceId.getD 0xFFFF)) .empty).values := by
  rw [discover_eq]
  generalize (OrderedDict.empty : Results) = results
  induction datagrams generalizing results with
  | nil => rfl
  | cons datagram rest ih =>
      have hrest := ih fun later hlater => h later (List.mem_cons_of_mem _ hlater)
      have hbare := mt recvfrom_bareHeader.mp (h datagram List.mem_cons_self)
      rw [List.map_cons, List.foldlM_cons, SdClient.receive, accepted, List.filterMap_cons]
      cases hparse : parseSd (SdClient.recvfrom datagram) with
      | ok info => exact hrest _
      | error error =>
          obtain ⟨message, rfl⟩ := parseSd_error hbare hparse
          exact hrest results

/-- A byte string is harmless, `parse_sd` accepting it or raising a `ValueError` and `discover`
ignoring it where it is not accepted, exactly when it is not a bare header. -/
theorem malformed_harmless_iff (datagram : Bytes) :
    (((∃ info, parseSd datagram = .ok info) ∨
          ∃ message, parseSd datagram = .error (.valueError message)) ∧
        ((∀ info, parseSd datagram ≠ .ok info) → ∀ serviceId instanceId before after,
          SdClient.discover serviceId instanceId (before ++ datagram :: after) =
            SdClient.discover serviceId instanceId (before ++ after))) ↔
      ¬BareHeader datagram := by
  constructor
  · rintro ⟨haccepted | ⟨message, hmessage⟩, _⟩ hbare
    · obtain ⟨info, hinfo⟩ := haccepted
      rw [parseSd_bareHeader hbare] at hinfo
      cases hinfo
    · rw [parseSd_bareHeader hbare] at hmessage
      cases hmessage
  · intro hbare
    constructor
    · cases hparse : parseSd datagram with
      | ok info => exact Or.inl ⟨info, rfl⟩
      | error error =>
          obtain ⟨message, rfl⟩ := parseSd_error hbare hparse
          exact Or.inr ⟨message, rfl⟩
    · intro hrejected serviceId instanceId before after
      cases hreceived : parseSd (SdClient.recvfrom datagram) with
      | ok info => exact absurd (parseSd_take hreceived) (hrejected info)
      | error error =>
          obtain ⟨message, rfl⟩ := parseSd_error (mt recvfrom_bareHeader.mp hbare) hreceived
          exact discover_skips hreceived serviceId instanceId before after

/-- The header of a service discovery packet, with nothing behind it. -/
def sdHeaderOnly : Bytes := [0xFF, 0xFF, 0x81, 0, 0, 0, 0, 20, 0, 0, 0, 1, 1, 1, 2, 0]

/-- It raises an `IndexError`, which ends the discovery it is received in. -/
theorem sdHeaderOnly_harmful :
    parseSd sdHeaderOnly = .error .indexError ∧
      SdClient.discover none none [sdHeaderOnly] = .error .indexError ∧
      SdClient.discover none none [] = .ok [] := by
  have hparse : parseSd sdHeaderOnly = .error .indexError := parseSd_bareHeader (by decide)
  have hrecv : SdClient.recvfrom sdHeaderOnly = sdHeaderOnly := by decide
  refine ⟨hparse, ?_, ?_⟩
  · rw [discover_eq, List.map_cons, hrecv, List.foldlM_cons, SdClient.receive, hparse]
    rfl
  · rw [discover_eq]
    rfl

end SdvZone.Mpu
