import OpenVpn.Util.EnvSet
import OpenVpn.Util.LineSplit

/-!
# Peer info in the environment of scripts

A client sends lines `name=value` about itself. Each line is checked and cleaned in place by
`validate_peer_info_line` and, if its name starts with `IV_` or `UV_`, added to the
environment.

* `validatePeerInfoLine_spec` — a line that passes is a clean name, `=` and a clean value.
* `peer_info_env_sanitised` — all that changes in the environment are such variables.
-/

namespace OpenVpn

open Base List

def isprint (c : UInt8) : Bool := decide (32 ≤ c ∧ c ≤ 126)

/-- The states 0, 1 and 2 of `validate_peer_info_line`. -/
inductive LineState
  | start | name | value
  deriving DecidableEq

def LineState.next (state : LineState) (c : UInt8) : Option LineState :=
  match state with
  | .value => some .value
  | _ =>
    if c = 61 ∧ state = .name then some .value
    else if isalnum c || c == 95 then some .name
    else none

/-- The result, and the line as it is left. -/
def validatePeerInfoLine (state : LineState) : Bytes → Bool × Bytes
  | [] => (state = .value, [])
  | c :: line =>
    match state.next c with
    | none => (false, c :: line)
    | some state' =>
      -- the case of the name falls through to that of the value
      let c' := if !isprint c || isspace c || c == 36 || c == 40 || c == 96 then 95 else c
      let (ok, line') := validatePeerInfoLine state' line
      (ok, c' :: line')

def outputPeerInfoLine (es : List Bytes) (line : Bytes) : List Bytes :=
  let (ok, line) := validatePeerInfoLine .start (chomp line)
  if ok && ((ascii "IV_").isPrefixOf line || (ascii "UV_").isPrefixOf line) then envSetAdd es line
  else es

def outputPeerInfoEnv (es : List Bytes) (peerInfo : Bytes) : List Bytes :=
  (bufLines 10 256 peerInfo).foldl outputPeerInfoLine es

/-! ## What reaches the environment -/

def CleanValue (value : Bytes) : Prop :=
  ∀ c ∈ value, isprint c = true ∧ isspace c = false ∧ c ≠ 36 ∧ c ≠ 40 ∧ c ≠ 96

def PeerName (name : Bytes) : Prop :=
  (ascii "IV_" <+: name ∨ ascii "UV_" <+: name) ∧ ∀ c ∈ name, ccName c = true

instance (name : Bytes) : Decidable (PeerName name) := inferInstanceAs (Decidable (_ ∧ _))

def PeerVariable (item : Bytes) : Prop :=
  ∃ name value, item = name ++ 61 :: value ∧ PeerName name ∧ CleanValue value

variable {line out item : Bytes} {es es' : List Bytes}

theorem validatePeerInfoLine_value (line : Bytes) :
    CleanValue (validatePeerInfoLine .value line).2 := by
  induction line with
  | nil => exact forall_mem_nil _
  | cons c line ih =>
    refine forall_mem_cons.mpr ⟨?_, ih⟩
    split
    · decide
    · grind

/-- What is accepted, after remapping, is a name, `=` and a clean value. -/
theorem validatePeerInfoLine_spec {state : LineState} (hst : state ≠ .value)
    (h : (validatePeerInfoLine state line).1 = true) :
    ∃ name value, (validatePeerInfoLine state line).2 = name ++ 61 :: value ∧
      (∀ c ∈ name, ccName c = true) ∧ CleanValue value := by
  induction line generalizing state with
  | nil => simp [validatePeerInfoLine, hst] at h
  | cons c line ih =>
    simp only [validatePeerInfoLine] at h ⊢
    have hnext : state.next c = if c = 61 ∧ state = .name then some .value
        else if ccName c then some .name else none := by
      cases state <;> first | rfl | exact absurd rfl hst
    by_cases hc : c = 61 ∧ state = .name
    · rw [hnext, if_pos hc]
      obtain ⟨rfl, -⟩ := hc
      exact ⟨[], _, rfl, forall_mem_nil _, validatePeerInfoLine_value line⟩
    · rw [hnext, if_neg hc] at h ⊢
      by_cases hname : ccName c = true
      · simp only [if_pos hname] at h ⊢
        obtain ⟨name, value, hline, hname', hv⟩ := ih (by decide) h
        refine ⟨c :: name, value, ?_, forall_mem_cons.mpr ⟨hname, hname'⟩, hv⟩
        have hkept : (!isprint c || isspace c || c == 36 || c == 40 || c == 96) = false := by
          grind [ccName, isalnum, isdigit, isprint, isspace]
        rw [hkept, hline]
        rfl
      · simp [hname] at h

/-- Peer variables are added or changed; all others stay as they are. -/
structure PeerInfoEffect (es es' : List Bytes) : Prop where
  items : ∀ item ∈ es', item ∈ es ∨ PeerVariable item
  lookups : ∀ name, envSetGet es' name = envSetGet es name ∨
    ∃ item, envSetGet es' name = some item ∧ PeerVariable item
  others : (es'.filter fun item => ¬PeerName (envName item)) =
    es.filter fun item => ¬PeerName (envName item)

theorem PeerInfoEffect.add (h : PeerInfoEffect es es') (hitem : PeerVariable item) :
    PeerInfoEffect es (envSetAdd es' item) where
  items := by
    refine forall_mem_cons.mpr ⟨.inr hitem, fun x hx => h.items x (mem_of_mem_eraseP hx)⟩
  lookups name := by
    rw [envSetGet_add]
    split
    · exact .inr ⟨item, rfl, hitem⟩
    · exact h.lookups name
  others := by
    obtain ⟨name, value, rfl, hname, -⟩ := hitem
    have hitem := (envName_field hname.2 value).1
    rw [← h.others]
    -- the string that is removed belongs to the same variable
    have hremoved : ∀ l : List Bytes, ((l.eraseP (envStringEqual · (name ++ 61 :: value))).filter
          fun item => ¬PeerName (envName item)) =
        l.filter fun item => ¬PeerName (envName item) := by
      intro l
      induction l with
      | nil => rfl
      | cons x l ih => grind [envStringEqual_iff]
    rw [envSetAdd, filter_cons_of_neg (by simp [hitem, hname]), removeEnvItem, hremoved]

theorem PeerInfoEffect.addLine (h : PeerInfoEffect es es') (line : Bytes) :
    PeerInfoEffect es (outputPeerInfoLine es' line) := by
  simp only [outputPeerInfoLine]
  split
  case isFalse => exact h
  case isTrue hline =>
    rw [Bool.and_eq_true, Bool.or_eq_true, isPrefixOf_iff_prefix, isPrefixOf_iff_prefix] at hline
    obtain ⟨hok, hpre⟩ := hline
    obtain ⟨name, value, heq, hname, hv⟩ := validatePeerInfoLine_spec (by decide) hok
    refine h.add ⟨name, value, heq, ⟨?_, hname⟩, hv⟩
    rw [heq] at hpre
    exact hpre.imp (prefix_of_prefix_field (by decide)) (prefix_of_prefix_field (by decide))

/-- **Peer info.** Whatever a client sends, the variables that are added or changed have a name
of letters, digits and underscores that starts with `IV_` or `UV_`, and a clean value. -/
theorem peer_info_env_sanitised (es : List Bytes) (peerInfo : Bytes) :
    PeerInfoEffect es (outputPeerInfoEnv es peerInfo) := by
  have hrun : ∀ (lines es' : List Bytes), PeerInfoEffect es es' →
      PeerInfoEffect es (lines.foldl outputPeerInfoLine es') := by
    intro lines
    induction lines with
    | nil => exact fun es' h => h
    | cons line lines ih => exact fun es' h => ih _ (h.addLine line)
  exact hrun _ es ⟨fun _ => .inl, fun _ => .inl rfl, rfl⟩

end OpenVpn
