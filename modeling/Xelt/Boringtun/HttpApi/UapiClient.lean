import Xelt.Boringtun.Device.Sections
import Xelt.Boringtun.HttpApi.Reaper

/-!
# The UAPI client of the registration server

What `http_api.rs` writes to the control socket and how it reads the answer.
Reader and writer are line-oriented: a peer is stored when the line of the
next one, the end marker or the end of the answer is read.
-/

namespace Xelt.Boringtun.Uapi

open Noise Payment Text

-- ---------------------------------------------------------------------------
-- The reader
-- ---------------------------------------------------------------------------

abbrev PeerMap := AList fun _ : Text => Option UInt64

structure Reading where
  ownPubkey : Option String
  listenPort : Option UInt16
  peers : PeerMap
  currentPubkey : Option Text
  currentHandshake : Option UInt64

namespace Reading

def start : Reading := ⟨none, none, ∅, none, none⟩

def flush (r : Reading) : Reading :=
  match r.currentPubkey with
  | some pk =>
    { r with
      peers := r.peers.insert pk r.currentHandshake
      currentPubkey := none
      currentHandshake := none }
  | none => r

variable (base64Encode : Bytes → String)

def line (r : Reading) (l : Text) : Reading :=
  match splitOnce '=' l with
  | none => r
  | some (key, val) =>
    match String.ofList key with
    | "own_public_key" =>
      match hexDecode val with
      | some bytes => { r with ownPubkey := some (base64Encode bytes) }
      | none => r
    | "listen_port" => { r with listenPort := (parseUnsigned 16 val).map UInt16.ofNat }
    | "public_key" => { r.flush with currentPubkey := some val, currentHandshake := none }
    | "last_handshake_time_sec" =>
      { r with currentHandshake := (parseUnsigned 64 val).map UInt64.ofNat }
    | _ => r

def read (r : Reading) : List Text → Reading
  | [] => r.flush
  | l :: ls =>
    if l = [] then r.flush.read ls
    else if "errno=".toList <+: l then r.flush
    else (r.line base64Encode l).read ls

end Reading

/-- What `uapi_get_peers` makes of an answer. -/
def uapiGetPeers (base64Encode : Bytes → String) (answer : Text) :
    Option String × Option UInt16 × PeerMap :=
  let r := Reading.start.read base64Encode (lines answer)
  (r.ownPubkey, r.listenPort, r.peers)

-- ---------------------------------------------------------------------------
-- The requests
-- ---------------------------------------------------------------------------

def getRequest : Text := "get=1\n".toList

/-- What `uapi_set_peer` writes. -/
def setPeerRequest (pubkeyHex : Text) (allowedIp : Ipv4Addr) : Text :=
  unlines
    ["set=1".toList, field "public_key" pubkeyHex, field "replace_allowed_ips" "true".toList,
      field "allowed_ip" (showIpv4 allowedIp ++ "/32".toList), []]

/-- What `uapi_remove_peer` writes. -/
def removePeerRequest (pubkeyHex : Text) : Text :=
  unlines ["set=1".toList, field "public_key" pubkeyHex, field "remove" "true".toList, []]

-- ---------------------------------------------------------------------------
-- Lines as they are written
-- ---------------------------------------------------------------------------

theorem plain_field {name : String} (hname : Plain name.toList) (hvalue : Plain value) :
    Plain (field name value) := by
  simp [field, hname, hvalue]

theorem plain_intercalate {sep : Text} (hsep : Plain sep) (h : ∀ t ∈ ts, Plain t) :
    Plain (sep.intercalate ts) := by
  induction ts with
  | nil => simp
  | cons t ts ih =>
    obtain ⟨ht, hts⟩ := List.forall_mem_cons.mp h
    cases ts with
    | nil => simpa using ht
    | cons t' ts =>
      rw [List.intercalate_cons_cons]
      simp only [plain_append]
      exact ⟨⟨ht, hsep⟩, ih hts⟩

@[simp] theorem plain_showIpv4 (ip : Ipv4Addr) : Plain (showIpv4 ip) := by
  refine plain_intercalate (by decide) fun t ht => ?_
  obtain ⟨b, -, rfl⟩ := List.mem_map.mp ht
  exact plain_decimal _

theorem plain_fmtSubslice (segments : List Nat) : Plain (fmtSubslice segments) := by
  refine plain_intercalate (by decide) fun t ht => ?_
  obtain ⟨segment, -, rfl⟩ := List.mem_map.mp ht
  exact plain_toDigits (by omega) le_rfl _

@[simp] theorem plain_showIpv6 (ip : Ipv6Addr) : Plain (showIpv6 ip) := by
  unfold showIpv6
  have hmapped : Plain "::ffff:".toList := by decide
  have hgap : Plain "::".toList := by decide
  split
  · exact plain_append.mpr ⟨hmapped, plain_showIpv4 _⟩
  · dsimp only
    split
    · exact plain_append.mpr ⟨plain_append.mpr ⟨plain_fmtSubslice _, hgap⟩, plain_fmtSubslice _⟩
    · exact plain_fmtSubslice _

@[simp] theorem plain_showIp (ip : IpAddr) : Plain (showIp ip) := by
  cases ip <;> simp [showIp]

@[simp] theorem plain_showSocketAddr (addr : SocketAddr) : Plain (showSocketAddr addr) := by
  cases addr with
  | v4 ip port => simp [showSocketAddr]
  | v6 ip port flowinfo scopeId =>
    by_cases h : scopeId = 0 <;> simp [showSocketAddr, h]

/-- The fields of an answer that the reader skips. -/
def otherNames : List String :=
  ["fwmark", "preshared_key", "persistent_keepalive_interval", "endpoint", "allowed_ip",
    "last_handshake_time_nsec", "rx_bytes", "tx_bytes", "quota_remaining", "quota_blocked",
    "quota_total_consumed", "quota_payment_count"]

def Other (l : Text) : Prop := ∃ name ∈ otherNames, ∃ value, Plain value ∧ l = field name value

theorem other_field {name : String} (hname : name ∈ otherNames) (hvalue : Plain value) :
    Other (field name value) := ⟨name, hname, value, hvalue, rfl⟩

theorem Other.plain (h : Other l) : Plain l := by
  have hnames : ∀ name ∈ otherNames, Plain name.toList := by decide
  obtain ⟨name, hname, value, hvalue, rfl⟩ := h
  exact plain_field (hnames name hname) hvalue

/-- The lines of a peer before the age of its handshake. -/
def linesBefore (p : PeerStatus) : List Text :=
  (p.presharedKey.toList.map fun key => field "preshared_key" (hexEncode key.toList)) ++
  (p.persistentKeepalive.toList.map fun keepalive =>
    field "persistent_keepalive_interval" (decimal keepalive.toNat)) ++
  (p.endpointAddr.toList.map fun addr => field "endpoint" (showSocketAddr addr)) ++
  (p.allowedIps.map fun (ip, cidr) => field "allowed_ip" (showIp ip ++ '/' :: decimal cidr.toNat))

def linesAfter (p : PeerStatus) : List Text :=
  [field "rx_bytes" (decimal p.rxBytes.toNat), field "tx_bytes" (decimal p.txBytes.toNat)] ++
  p.quota.toList.flatMap quotaLines

def handshakeLines (p : PeerStatus) : List Text :=
  p.timeSinceLastHandshake.toList.flatMap fun time =>
    [field "last_handshake_time_sec" (decimal time.secs.toNat),
      field "last_handshake_time_nsec" (decimal time.subsecNanos.toNat)]

theorem statusLines_eq (p : PeerStatus) :
    statusLines p = linesBefore p ++ (handshakeLines p ++ linesAfter p) := by
  simp [statusLines, linesBefore, handshakeLines, linesAfter]

theorem other_linesBefore (p : PeerStatus) : ∀ l ∈ linesBefore p, Other l := by
  intro l hl
  simp only [linesBefore, List.mem_append, List.mem_map] at hl
  rcases hl with ((⟨key, -, rfl⟩ | ⟨keepalive, -, rfl⟩) | ⟨addr, -, rfl⟩) | ⟨⟨ip, cidr⟩, -, rfl⟩
  · exact other_field (by decide) (plain_hexEncode _)
  · exact other_field (by decide) (plain_decimal _)
  · exact other_field (by decide) (plain_showSocketAddr _)
  · exact other_field (by decide) (by simp)

theorem other_linesAfter (p : PeerStatus) : ∀ l ∈ linesAfter p, Other l := by
  have hblocked : ∀ b : Bool, Plain (if b then "true".toList else "false".toList) := by decide
  intro l hl
  simp only [linesAfter, quotaLines, List.mem_append, List.mem_flatMap, List.mem_cons,
    List.not_mem_nil, or_false] at hl
  rcases hl with (rfl | rfl) | ⟨quota, -, rfl | rfl | rfl | rfl⟩
  · exact other_field (by decide) (plain_decimal _)
  · exact other_field (by decide) (plain_decimal _)
  · exact other_field (by decide) (plain_decimal _)
  · exact other_field (by decide) (hblocked _)
  · exact other_field (by decide) (plain_decimal _)
  · exact other_field (by decide) (plain_decimal _)

theorem plain_peerLines (key : Bytes32) (p : PeerStatus) : ∀ l ∈ peerLines key p, Plain l := by
  intro l hl
  simp only [peerLines, statusLines_eq, List.mem_cons, List.mem_append] at hl
  rcases hl with rfl | hl | hl | hl
  · exact plain_field (by decide) (plain_hexEncode _)
  · exact (other_linesBefore p l hl).plain
  · simp only [handshakeLines, List.mem_flatMap, List.mem_cons, List.not_mem_nil, or_false] at hl
    obtain ⟨time, -, rfl | rfl⟩ := hl
    · exact plain_field (by decide) (plain_decimal _)
    · exact plain_field (by decide) (plain_decimal _)
  · exact (other_linesAfter p l hl).plain

theorem plain_deviceLines (d : DeviceStatus) : ∀ l ∈ deviceLines d, Plain l := by
  intro l hl
  simp only [deviceLines, List.mem_append, List.mem_map] at hl
  rcases hl with (⟨key, -, rfl⟩ | hl) | ⟨fwmark, -, rfl⟩
  · exact plain_field (by decide) (plain_hexEncode _)
  · split at hl
    · cases hl
    · rw [List.mem_singleton.mp hl]
      exact plain_field (by decide) (plain_decimal _)
  · exact plain_field (by decide) (plain_decimal _)

-- ---------------------------------------------------------------------------
-- What the reader makes of a line
-- ---------------------------------------------------------------------------

namespace Reading

variable {base64Encode : Bytes → String} {r : Reading}

theorem not_errno {name : String} (hname : '=' ∉ name.toList) (hne : name ≠ "errno")
    (value : Text) : ¬ "errno=".toList <+: field name value := by
  rintro ⟨rest, heq⟩
  have herrno : splitOnce '=' ("errno".toList ++ '=' :: rest) = some ("errno".toList, rest) :=
    splitOnce_append (by decide) rest
  have hfield : splitOnce '=' (field name value) = some (name.toList, value) :=
    splitOnce_append hname value
  rw [← heq] at hfield
  have hsame := Option.some.inj (herrno.symm.trans hfield)
  exact hne (String.toList_inj.mp (congrArg Prod.fst hsame).symm)

theorem read_field {name : String} (hname : '=' ∉ name.toList) (hne : name ≠ "errno")
    (value : Text) (rest : List Text) :
    r.read base64Encode (field name value :: rest) =
      (r.line base64Encode (field name value)).read base64Encode rest := by
  rw [read, if_neg (by simp [field]), if_neg (not_errno hname hne value)]

theorem line_other (h : Other l) : r.line base64Encode l = r := by
  obtain ⟨name, hname, value, -, rfl⟩ := h
  have hsep : ∀ name ∈ otherNames, '=' ∉ name.toList := by decide
  rw [line, field, splitOnce_append (hsep name hname)]
  simp only [otherNames, List.mem_cons, List.not_mem_nil, or_false] at hname
  simp only [String.ofList_toList]
  rcases hname with rfl | rfl | rfl | rfl | rfl | rfl | rfl | rfl | rfl | rfl | rfl | rfl <;> rfl

theorem read_others (h : ∀ l ∈ ls, Other l) (rest : List Text) :
    r.read base64Encode (ls ++ rest) = r.read base64Encode rest := by
  have hnames : ∀ name ∈ otherNames, '=' ∉ name.toList ∧ name ≠ "errno" := by decide
  induction ls with
  | nil => rfl
  | cons l ls ih =>
    obtain ⟨hl, hls⟩ := List.forall_mem_cons.mp h
    have hline : r.line base64Encode l = r := line_other hl
    obtain ⟨name, hname, value, -, rfl⟩ := hl
    rw [List.cons_append, read_field (hnames name hname).1 (hnames name hname).2, hline, ih hls]

def take (r : Reading) (e : (_ : Bytes32) × PeerStatus) : Reading :=
  { r.flush with
    currentPubkey := some (hexEncode e.1.toList)
    currentHandshake := e.2.timeSinceLastHandshake.map (·.secs) }

theorem line_ownPublicKey (key : Bytes32) :
    r.line base64Encode (field "own_public_key" (hexEncode key.toList)) =
      { r with ownPubkey := some (base64Encode key.toList) } := by
  rw [line, field, splitOnce_append (by decide)]
  simp only [String.ofList_toList, hexDecode_hexEncode]

theorem line_listenPort (port : UInt16) :
    r.line base64Encode (field "listen_port" (decimal port.toNat)) =
      { r with listenPort := some port } := by
  rw [line, field, splitOnce_append (by decide)]
  simp only [String.ofList_toList, parseUnsigned_decimal port.toNat_lt, Option.map_some,
    UInt16.ofNat_toNat]

theorem line_publicKey (text : Text) :
    r.line base64Encode (field "public_key" text) =
      { r.flush with currentPubkey := some text, currentHandshake := none } := by
  rw [line, field, splitOnce_append (by decide)]
  simp only [String.ofList_toList]

theorem line_handshake (secs : UInt64) :
    r.line base64Encode (field "last_handshake_time_sec" (decimal secs.toNat)) =
      { r with currentHandshake := some secs } := by
  rw [line, field, splitOnce_append (by decide)]
  simp only [String.ofList_toList, parseUnsigned_decimal secs.toNat_lt, Option.map_some,
    UInt64.ofNat_toNat]

/-- The age of the handshake goes to the peer in hand, and nothing else of its
lines does. -/
theorem read_peer (e : (_ : Bytes32) × PeerStatus) (rest : List Text) :
    r.read base64Encode (peerLines e.1 e.2 ++ rest) = (r.take e).read base64Encode rest := by
  rw [peerLines, List.cons_append, read_field (by decide) (by decide), line_publicKey,
    statusLines_eq, List.append_assoc, read_others (other_linesBefore e.2), List.append_assoc,
    take, handshakeLines]
  cases e.2.timeSinceLastHandshake with
  | none => exact read_others (other_linesAfter e.2) rest
  | some time =>
    have hnanos : Other (field "last_handshake_time_nsec" (decimal time.subsecNanos.toNat)) :=
      other_field (by decide) (plain_decimal _)
    simp only [Option.toList_some, List.flatMap_cons, List.flatMap_nil, List.append_nil,
      List.cons_append, List.nil_append]
    rw [read_field (by decide) (by decide), line_handshake, read_field (by decide) (by decide),
      line_other hnanos, read_others (other_linesAfter e.2)]
    rfl

theorem read_peers (es : List ((_ : Bytes32) × PeerStatus)) (rest : List Text) :
    r.read base64Encode (es.flatMap (fun e => peerLines e.1 e.2) ++ rest) =
      (es.foldl take r).read base64Encode rest := by
  induction es generalizing r with
  | nil => rfl
  | cons e es ih => rw [List.flatMap_cons, List.append_assoc, read_peer, ih, List.foldl_cons]

@[simp] theorem flush_ownPubkey (r : Reading) : r.flush.ownPubkey = r.ownPubkey := by
  unfold flush
  split <;> rfl

@[simp] theorem flush_listenPort (r : Reading) : r.flush.listenPort = r.listenPort := by
  unfold flush
  split <;> rfl

theorem flush_take (r : Reading) (e : (_ : Bytes32) × PeerStatus) :
    (r.take e).flush.peers =
      r.flush.peers.insert (hexEncode e.1.toList) (e.2.timeSinceLastHandshake.map (·.secs)) := rfl

theorem take_same (es : List ((_ : Bytes32) × PeerStatus)) :
    (es.foldl take r).ownPubkey = r.ownPubkey ∧ (es.foldl take r).listenPort = r.listenPort := by
  induction es generalizing r with
  | nil => exact ⟨rfl, rfl⟩
  | cons e es ih => simpa [take] using ih (r := r.take e)

theorem lookup_take {es : List ((_ : Bytes32) × PeerStatus)} (hn : es.NodupKeys) (key : Bytes32) :
    (es.foldl take r).flush.peers.lookup (hexEncode key.toList) =
      ((es.dlookup key).map fun p => p.timeSinceLastHandshake.map (·.secs)).or
        (r.flush.peers.lookup (hexEncode key.toList)) := by
  induction es generalizing r with
  | nil => rfl
  | cons e es ih =>
    obtain ⟨other, p⟩ := e
    obtain ⟨hnew, hes⟩ := List.nodupKeys_cons.mp hn
    rw [List.foldl_cons, ih hes, flush_take]
    by_cases hkey : key = other
    · subst hkey
      rw [List.dlookup_eq_none.mpr hnew, List.dlookup_cons_eq, AList.lookup_insert]
      rfl
    · have hhex : hexEncode key.toList ≠ hexEncode other.toList := fun h =>
        hkey (List.Vector.toList_injective (hexEncode_injective h))
      rw [List.dlookup_cons_ne _ _ hkey, AList.lookup_insert_ne hhex]

theorem mem_take {es : List ((_ : Bytes32) × PeerStatus)}
    (h : text ∈ (es.foldl take r).flush.peers) :
    text ∈ r.flush.peers ∨ ∃ e ∈ es, text = hexEncode e.1.toList := by
  induction es generalizing r with
  | nil => exact .inl h
  | cons e es ih =>
    rcases ih h with h | ⟨e', he', htext⟩
    · rw [flush_take, AList.mem_insert] at h
      rcases h with rfl | h
      · exact .inr ⟨e, List.mem_cons_self, rfl⟩
      · exact .inl h
    · exact .inr ⟨e', List.mem_cons_of_mem e he', htext⟩

theorem read_device (d : DeviceStatus) (rest : List Text) :
    start.read base64Encode (deviceLines d ++ rest) =
      Reading.read base64Encode { start with
        ownPubkey := d.ownPublicKey.map fun key => base64Encode key.toList
        listenPort := if d.listenPort = 0 then none else some d.listenPort } rest := by
  have hfwmark : ∀ l ∈ d.fwmark.toList.map fun fwmark => field "fwmark" (decimal fwmark.toNat),
      Other l := by
    intro l hl
    obtain ⟨fwmark, -, rfl⟩ := List.mem_map.mp hl
    exact other_field (by decide) (plain_decimal _)
  rw [deviceLines, List.append_assoc, List.append_assoc]
  have hport : ∀ r : Reading, r.listenPort = none → ∀ rest,
      r.read base64Encode ((if d.listenPort = 0 then []
        else [field "listen_port" (decimal d.listenPort.toNat)]) ++ rest) =
      Reading.read base64Encode { r with
        listenPort := if d.listenPort = 0 then none else some d.listenPort } rest := by
    intro r hr rest
    by_cases h0 : d.listenPort = 0
    · simp [h0, ← hr]
    · rw [if_neg h0, if_neg h0, List.singleton_append, read_field (by decide) (by decide),
        line_listenPort]
  cases d.ownPublicKey with
  | none =>
    rw [Option.toList_none, List.map_nil, List.nil_append, hport _ rfl, read_others hfwmark]
    rfl
  | some key =>
    rw [Option.toList_some, List.map_singleton, List.singleton_append,
      read_field (by decide) (by decide), line_ownPublicKey, hport _ rfl, read_others hfwmark]
    rfl

end Reading

-- ---------------------------------------------------------------------------
-- The answer to get=1
-- ---------------------------------------------------------------------------

/-- The answer tells of the device its key, its port and of every peer the
age of the handshake in seconds, if there is one. -/
structure Tells (base64Encode : Bytes → String) (d : DeviceStatus)
    (answer : Option String × Option UInt16 × PeerMap) : Prop where
  ownPubkey : answer.1 = d.ownPublicKey.map fun key => base64Encode key.toList
  listenPort : answer.2.1 = if d.listenPort = 0 then none else some d.listenPort
  handshake : ∀ key : Bytes32, answer.2.2.lookup (hexEncode key.toList) =
    (d.peers.lookup key).map fun p => p.timeSinceLastHandshake.map (·.secs)
  known : ∀ text ∈ answer.2.2, ∃ key ∈ d.peers, text = hexEncode key.toList

theorem tells_of_lines (base64Encode : Bytes → String) (d : DeviceStatus) {answer : Text}
    (h : lines answer = deviceLines d ++ (d.peers.entries.flatMap (fun e =>
      peerLines e.1 e.2) ++ rest))
    (hrest : ∀ r : Reading, r.read base64Encode rest = r.flush) :
    Tells base64Encode d (uapiGetPeers base64Encode answer) := by
  rw [uapiGetPeers, h, Reading.read_device, Reading.read_peers, hrest]
  obtain ⟨hown, hport⟩ := Reading.take_same d.peers.entries
    (r := { Reading.start with
      ownPubkey := d.ownPublicKey.map fun key => base64Encode key.toList
      listenPort := if d.listenPort = 0 then none else some d.listenPort })
  refine ⟨?_, ?_, fun key => ?_, fun text htext => ?_⟩
  · exact (Reading.flush_ownPubkey _).trans hown
  · exact (Reading.flush_listenPort _).trans hport
  · refine (Reading.lookup_take d.peers.nodupKeys key).trans ?_
    exact Option.or_none
  · rcases Reading.mem_take htext with h | ⟨e, he, rfl⟩
    · cases h
    · exact ⟨e.1, List.mem_keys.mpr ⟨e.2, he⟩, rfl⟩

theorem lines_apiGet (d : DeviceStatus) (rest : Text) :
    lines (apiGet d ++ rest) =
      deviceLines d ++ (d.peers.entries.flatMap (fun e => peerLines e.1 e.2) ++ lines rest) := by
  have hplain : ∀ l ∈ deviceLines d ++ d.peers.entries.flatMap (fun e => peerLines e.1 e.2),
      Plain l := by
    intro l hl
    rcases List.mem_append.mp hl with hl | hl
    · exact plain_deviceLines d l hl
    · obtain ⟨e, -, hl⟩ := List.mem_flatMap.mp hl
      exact plain_peerLines e.1 e.2 l hl
  rw [apiGet, lines_unlines hplain, List.append_assoc]

theorem lines_errno (status : Errno) : lines (unlines (errnoLines status)) = errnoLines status := by
  have hplain : ∀ l ∈ errnoLines status, Plain l := by
    intro l hl
    rcases List.mem_pair.mp hl with rfl | rfl
    · exact plain_field (by decide) (plain_decimal _)
    · exact plain_nil
  simpa [lines, rawLines] using lines_unlines hplain []

theorem tells_apiGet (base64Encode : Bytes → String) (d : DeviceStatus) :
    Tells base64Encode d (uapiGetPeers base64Encode (apiGet d)) := by
  have hlines := lines_apiGet d []
  rw [List.append_nil] at hlines
  exact tells_of_lines base64Encode d hlines fun r => rfl

theorem read_errno (base64Encode : Bytes → String) (status : Errno) (r : Reading) :
    r.read base64Encode (errnoLines status) = r.flush := by
  have hmarker : "errno=".toList <+: field "errno" (decimal status.code) :=
    ⟨decimal status.code, by simp [field]⟩
  rw [errnoLines, Reading.read, if_neg (by simp [field]), if_pos hmarker]

-- ---------------------------------------------------------------------------
-- The calls of set=1
-- ---------------------------------------------------------------------------

section
variable (base64Decode : Text → Option Bytes) (parseIpv6 : Text → Option Ipv6Addr)
  (parseSocketAddr : Text → Option SocketAddr) (outcome : List DeviceCall → CallEnd)

def setPeerUpdate (key : Bytes32) (allowedIp : Ipv4Addr) : PeerUpdate :=
  { PeerUpdate.new key with replaceIps := true, allowedIps := [⟨.v4 allowedIp, 32⟩] }

def removePeerUpdate (key : Bytes32) : PeerUpdate := { PeerUpdate.new key with remove := true }

theorem perform_calls (calls : List DeviceCall) (c : DeviceCall) :
    (perform outcome calls c none fun calls => (calls, some .ok)).1 = calls ++ [c] := by
  unfold perform
  cases outcome (calls ++ [c]) <;> rfl

theorem apiSet_publicKey (calls : List DeviceCall) (key : Bytes32) (rest : List Text) :
    apiSet base64Decode parseIpv6 parseSocketAddr outcome calls
        ((field "public_key" (hexEncode key.toList) ++ ['\n']) :: rest) =
      apiSetPeer base64Decode parseIpv6 parseSocketAddr outcome calls (.new key) rest := by
  have hhex : '=' ∉ hexEncode key.toList := not_mem_hexEncode (by decide)
  have hsplit : (field "public_key" (hexEncode key.toList)).splitOn '=' =
      ["public_key".toList, hexEncode key.toList] := by
    rw [field, splitOn_cons (by decide), splitOn_single hhex]
  rw [apiSet]
  simp only [List.dropLast_concat, hsplit, String.ofList_toList, parseKeyBytes_hexEncode]
  rw [if_neg (by simp [field])]

theorem serve_set (d : DeviceStatus) {ls : List Text} (h : ∀ l ∈ ls, Plain l) :
    (serveConnection base64Decode parseIpv6 parseSocketAddr outcome d
        (unlines ("set=1".toList :: ls))).1 =
      (apiSet base64Decode parseIpv6 parseSocketAddr outcome [] (ls.map (· ++ ['\n']))).1 := by
  have hplain : ∀ l ∈ "set=1".toList :: ls, Plain l := List.forall_mem_cons.mpr ⟨by decide, h⟩
  have hraw := rawLines_unlines hplain []
  rw [List.append_nil, rawLines, List.append_nil, List.map_cons] at hraw
  rw [serveConnection, hraw]
  simp only [List.dropLast_concat, String.ofList_toList]

theorem splitOnce_raw (name : String) (hname : '=' ∉ name.toList) (value : Text) :
    (field name value ++ ['\n']).dropLast ≠ [] ∧
      splitOnce '=' (field name value ++ ['\n']).dropLast = some (name.toList, value) := by
  rw [List.dropLast_concat]
  exact ⟨by simp [field], splitOnce_append hname value⟩

theorem apiSetPeer_remove (calls : List DeviceCall) (update : PeerUpdate) (rest : List Text) :
    apiSetPeer base64Decode parseIpv6 parseSocketAddr outcome calls update
        ((field "remove" "true".toList ++ ['\n']) :: rest) =
      apiSetPeer base64Decode parseIpv6 parseSocketAddr outcome calls { update with remove := true }
        rest := by
  have htrue : parseBool "true".toList = some true := by decide
  obtain ⟨hne, hsplit⟩ := splitOnce_raw "remove" (by decide) "true".toList
  rw [apiSetPeer]
  simp only [if_neg hne, hsplit, String.ofList_toList, htrue]

theorem apiSetPeer_replaceIps (calls : List DeviceCall) (update : PeerUpdate) (rest : List Text) :
    apiSetPeer base64Decode parseIpv6 parseSocketAddr outcome calls update
        ((field "replace_allowed_ips" "true".toList ++ ['\n']) :: rest) =
      apiSetPeer base64Decode parseIpv6 parseSocketAddr outcome calls
        { update with replaceIps := true } rest := by
  have htrue : parseBool "true".toList = some true := by decide
  obtain ⟨hne, hsplit⟩ := splitOnce_raw "replace_allowed_ips" (by decide) "true".toList
  rw [apiSetPeer]
  simp only [if_neg hne, hsplit, String.ofList_toList, htrue]

theorem apiSetPeer_allowedIp (calls : List DeviceCall) (update : PeerUpdate) (ip : Ipv4Addr)
    (rest : List Text) :
    apiSetPeer base64Decode parseIpv6 parseSocketAddr outcome calls update
        ((field "allowed_ip" (showIpv4 ip ++ "/32".toList) ++ ['\n']) :: rest) =
      apiSetPeer base64Decode parseIpv6 parseSocketAddr outcome calls
        { update with allowedIps := update.allowedIps ++ [⟨.v4 ip, 32⟩] } rest := by
  obtain ⟨hne, hsplit⟩ := splitOnce_raw "allowed_ip" (by decide)
    (showIpv4 ip ++ "/32".toList)
  rw [apiSetPeer]
  simp only [if_neg hne, hsplit, String.ofList_toList, parseAllowedIP_host]

theorem apiSetPeer_end (calls : List DeviceCall) (update : PeerUpdate) (rest : List Text) :
    (apiSetPeer base64Decode parseIpv6 parseSocketAddr outcome calls update (['\n'] :: rest)).1 =
      calls ++ [.updatePeer update] := by
  rw [apiSetPeer]
  exact perform_calls outcome calls (.updatePeer update)

theorem serve_setPeer (d : DeviceStatus) (key : Bytes32) (allowedIp : Ipv4Addr) :
    (serveConnection base64Decode parseIpv6 parseSocketAddr outcome d
        (setPeerRequest (hexEncode key.toList) allowedIp)).1 =
      [.updatePeer (setPeerUpdate key allowedIp)] := by
  have hplain : ∀ l ∈ [field "public_key" (hexEncode key.toList),
      field "replace_allowed_ips" "true".toList,
      field "allowed_ip" (showIpv4 allowedIp ++ "/32".toList), []], Plain l := by
    have hhost : Plain "/32".toList := by decide
    simp only [List.forall_mem_cons]
    exact ⟨plain_field (by decide) (plain_hexEncode _), plain_field (by decide) (by decide),
      plain_field (by decide) (plain_append.mpr ⟨plain_showIpv4 _, hhost⟩), plain_nil, by simp⟩
  rw [setPeerRequest, serve_set _ _ _ _ d hplain]
  simp only [List.map_cons, List.map_nil, List.nil_append]
  rw [apiSet_publicKey, apiSetPeer_replaceIps, apiSetPeer_allowedIp, apiSetPeer_end]
  rfl

theorem serve_removePeer (d : DeviceStatus) (key : Bytes32) :
    (serveConnection base64Decode parseIpv6 parseSocketAddr outcome d
        (removePeerRequest (hexEncode key.toList))).1 = [.updatePeer (removePeerUpdate key)] := by
  have hplain : ∀ l ∈ [field "public_key" (hexEncode key.toList), field "remove" "true".toList, []],
      Plain l := by
    simp only [List.forall_mem_cons]
    exact ⟨plain_field (by decide) (plain_hexEncode _), plain_field (by decide) (by decide),
      plain_nil, by simp⟩
  rw [removePeerRequest, serve_set _ _ _ _ d hplain]
  simp only [List.map_cons, List.map_nil, List.nil_append]
  rw [apiSet_publicKey, apiSetPeer_remove, apiSetPeer_end]
  rfl

end

/-- Client and server agree: the client finds in the answer what the device
has, and its requests make the calls they are meant to make. -/
theorem client_server_agree (base64Encode : Bytes → String) (base64Decode : Text → Option Bytes)
    (parseIpv6 : Text → Option Ipv6Addr) (parseSocketAddr : Text → Option SocketAddr)
    (outcome : List DeviceCall → CallEnd) (d : DeviceStatus) :
    Tells base64Encode d (uapiGetPeers base64Encode (apiGet d)) ∧
      (∃ answer, serveConnection base64Decode parseIpv6 parseSocketAddr outcome d getRequest =
          ([], some answer) ∧ Tells base64Encode d (uapiGetPeers base64Encode answer)) ∧
      ∀ key allowedIp,
        (serveConnection base64Decode parseIpv6 parseSocketAddr outcome d
            (setPeerRequest (hexEncode key.toList) allowedIp)).1 =
          [.updatePeer (setPeerUpdate key allowedIp)] ∧
        (serveConnection base64Decode parseIpv6 parseSocketAddr outcome d
            (removePeerRequest (hexEncode key.toList))).1 =
            [.updatePeer (removePeerUpdate key)] := by
  refine ⟨tells_apiGet base64Encode d, ⟨_, rfl, ?_⟩, fun key allowedIp => ⟨?_, ?_⟩⟩
  · refine tells_of_lines base64Encode d (lines_apiGet d _) fun r => ?_
    rw [lines_errno, read_errno]
  · exact serve_setPeer base64Decode parseIpv6 parseSocketAddr outcome d key allowedIp
  · exact serve_removePeer base64Decode parseIpv6 parseSocketAddr outcome d key

-- ---------------------------------------------------------------------------
-- The calls of the service
-- ---------------------------------------------------------------------------

/-- The device, as `get=1` shows it. -/
def statusOf (d : Device) (listenPort : UInt16) (fwmark : Option UInt32)
    (status : Bytes32 → PeerStatus) : DeviceStatus where
  ownPublicKey := d.keyPair.map (·.2)
  listenPort
  fwmark
  peers := ⟨d.peers.entries.map fun e => ⟨e.1, status e.1⟩, by
    have h := d.peers.nodupKeys
    simpa [List.NodupKeys, List.keys, Function.comp_def] using h⟩

theorem snapshot_lookup (base64Encode : Bytes → String) (d : Device) (listenPort : UInt16)
    (fwmark : Option UInt32) (status : Bytes32 → PeerStatus) (key : Bytes32) :
    ((uapiGetPeers base64Encode (apiGet (statusOf d listenPort fwmark status))).2.2.lookup
        (hexEncode key.toList)).map (·.map (·.toNat)) =
      (HttpApi.uapiGetPeers d fun key =>
        (status key).timeSinceLastHandshake.map (·.secs.toNat)).lookup key := by
  have hpeers : (statusOf d listenPort fwmark status).peers.lookup key =
      (d.peers.lookup key).map fun _ => status key := HttpApi.dlookup_map d.peers.entries status key
  rw [(tells_apiGet base64Encode _).handshake, hpeers, HttpApi.uapiGetPeers_lookup]
  simp [Function.comp_def]

theorem uapiSetPeer_run (addrOf : SocketAddr → Boringtun.SocketAddr) (d : Device) (key : Bytes32)
    (allowedIp : Ipv4Addr) :
    HttpApi.uapiSetPeer d key allowedIp .ok =
      match (setPeerUpdate key allowedIp).run addrOf d with
      | some d' => (d', .ok ())
      | none => (d, .error "UAPI set failed: ") := rfl

theorem uapiRemovePeer_run (addrOf : SocketAddr → Boringtun.SocketAddr) (d : Device)
    (key : Bytes32) :
    some (HttpApi.uapiRemovePeer d key .ok).1 = (removePeerUpdate key).run addrOf d := rfl

end Xelt.Boringtun.Uapi
