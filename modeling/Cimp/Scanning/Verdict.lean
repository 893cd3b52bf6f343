import Cimp.Common
import Cimp.Scanning.Instream
import Mathlib.Data.List.Infix

namespace Cimp.ClamavScanService

inductive SocketEvent
  | timeout
  | error (message : String)
  | data (d : List UInt8)
  | ended
deriving DecidableEq, Repr

/-- The first timeout, error or end settles the promise; what follows comes too late. -/
def settle (chunks : List (List UInt8)) : List SocketEvent → Option (Except String (List UInt8))
  | [] => none
  | .timeout :: _ => some (.error "clamd timeout")
  | .error message :: _ => some (.error message)
  | .data d :: events => settle (chunks ++ [d]) events
  | .ended :: _ => some (.ok chunks.flatten)

def isWordChar (c : Char) : Bool := c.isAlphanum || c = '_'

/-- `/\bOK\b/`, from behind `previous` on. -/
def testsOk (previous : Option Char) : List Char → Bool
  | 'O' :: 'K' :: rest =>
    (!previous.any isWordChar && !rest.head?.any isWordChar) || testsOk (some 'O') ('K' :: rest)
  | c :: rest => testsOk (some c) rest
  | [] => false

def testsFound (reply : List Char) : Bool := "FOUND".toList <:+: reply

def verdict (reply : List Char) : ScanStatus :=
  if testsOk none reply && !testsFound reply then .clean
  else if testsFound reply then .infected
  else .pending

def answer (toText : List UInt8 → List Char) : Except String (List UInt8) → ScanStatus
  | .ok reply => verdict (toText reply)
  | .error _ => .pending

def scan (toText : List UInt8 → List Char) (events : List SocketEvent) : Option ScanStatus :=
  (settle [] events).map (answer toText)

example : verdict "stream: OK\x00".toList = .clean := by decide

example : verdict "stream: Eicar-Test-Signature FOUND\x00".toList = .infected := by decide

example : verdict "INSTREAM size limit exceeded. ERROR\x00".toList = .pending := by decide

theorem flatten_instream (buffer : List UInt8) :
    ∃ frames data, (instream buffer).flatten = command ++ frames ∧ Framing.read 4 frames = some (data, []) ∧
      data.flatten = buffer := by
  obtain ⟨data, hwrites, hbounds, hflatten⟩ := dataWrites_framed buffer 0
  refine ⟨data.flatMap (Framing.frame 4) ++ (Framing.bigEndian 4 0 ++ []), data, ?_, ?_, hflatten⟩
  · rw [instream, hwrites, List.flatten_cons, List.flatten_append, flatten_framed]
    rfl
  · apply Framing.read_frames
    intro slice hslice
    have hlength := hbounds slice hslice
    constructor
    · apply List.ne_nil_of_length_pos
      omega
    · omega

theorem settle_data (chunks ds : List (List UInt8)) (late : List SocketEvent) :
    settle chunks (ds.map .data ++ .ended :: late) = some (.ok (chunks ++ ds).flatten) := by
  induction ds generalizing chunks with
  | nil => simp [settle]
  | cons d ds ih =>
    rw [List.map_cons, List.cons_append, settle, ih, List.append_assoc, List.singleton_append]

theorem verdict_clean {reply : List Char} (h : verdict reply = .clean) : testsFound reply = false := by
  unfold verdict at h
  split at h
  · rename_i hok
    rw [Bool.and_eq_true, Bool.not_eq_true'] at hok
    exact hok.2
  · split at h <;> cases h

theorem verdict_ne_skipped (reply : List Char) : verdict reply ≠ .skipped := by
  unfold verdict
  split
  · decide
  · split <;> decide

theorem scan_clean {toText : List UInt8 → List Char} {events : List SocketEvent} (h : scan toText events = some .clean) :
    ∃ reply, settle [] events = some (.ok reply) ∧ verdict (toText reply) = .clean := by
  obtain ⟨result, hresult, hanswer⟩ := Option.map_eq_some_iff.mp h
  cases result with
  | error message => cases hanswer
  | ok reply => exact ⟨reply, hresult, hanswer⟩

theorem scan_ne_skipped {toText : List UInt8 → List Char} {events : List SocketEvent} :
    scan toText events ≠ some .skipped := by
  intro h
  obtain ⟨result, _, hanswer⟩ := Option.map_eq_some_iff.mp h
  cases result with
  | error message => cases hanswer
  | ok reply => exact verdict_ne_skipped _ hanswer

end Cimp.ClamavScanService
