import VT7.Native.Utf8Stream
import VT7.Parser.Chunks

/-!
# From bytes to the parser

The bytes of a transport are decoded by the stream, and what is decoded is parsed.  However the transport cuts them, the
parser is where the complete characters bring it one by one.
-/

namespace VT7.Native

open VT7.Lib.Utf8
open VT7.Parser
open StateMachine

/-- A terminal with its decoder. -/
structure ParsedStream where
  stream : Utf8TerminalStream
  machine : StateMachine

namespace ParsedStream

variable (engine : Engine) (convert : List UInt8 → List UInt16)

/-- A write: what is decoded goes to `ProcessString`, if there is anything. -/
def write (t : ParsedStream) (bytes : List UInt8) : HResult × ParsedStream :=
  let written := t.stream.write convert bytes none
  let machine := if written.passed = [] then t.machine else t.machine.processString engine written.passed
  (written.result, ⟨written.stream, machine⟩)

/-- Writes up to the first one that fails. -/
def writeAll : ParsedStream → List (List UInt8) → Except HResult ParsedStream
  | t, [] => .ok t
  | t, bytes :: chunks =>
    let (result, t) := t.write engine convert bytes
    if result ≠ .ok then .error result else writeAll t chunks

variable {engine convert}

/-- The parser gets the texts that the stream passes on. -/
lemma writeAll_strings {s s' : Utf8TerminalStream} {chunks : List (List UInt8)} {text : List UInt16}
    (h : s.writeAll convert chunks = .ok (text, s')) (m : StateMachine) :
    ∃ strings : List (List UInt16), strings.flatten = text ∧
      writeAll engine convert ⟨s, m⟩ chunks = .ok ⟨s', strings.foldl (processString engine) m⟩ := by
  induction chunks generalizing s text m with
  | nil =>
    cases h
    exact ⟨[], rfl, rfl⟩
  | cons bytes chunks ih =>
    unfold Utf8TerminalStream.writeAll at h
    dsimp only at h
    by_cases hresult : (s.write convert bytes none).result = .ok
    · rw [if_neg (not_not_intro hresult)] at h
      cases hrest : (s.write convert bytes none).stream.writeAll convert chunks with
      | error e =>
        rw [hrest] at h
        cases h
      | ok answer =>
        obtain ⟨text', s''⟩ := answer
        rw [hrest] at h
        cases h
        obtain ⟨strings, hflatten, hall⟩ := ih hrest (if (s.write convert bytes none).passed = [] then m
          else m.processString engine (s.write convert bytes none).passed)
        have hwrite : writeAll engine convert ⟨s, m⟩ (bytes :: chunks) = .ok ⟨s'', strings.foldl (processString engine)
            (if (s.write convert bytes none).passed = [] then m
              else m.processString engine (s.write convert bytes none).passed)⟩ := by
          rw [writeAll]
          exact (if_neg (not_not_intro hresult)).trans hall
        by_cases hpassed : (s.write convert bytes none).passed = []
        · rw [if_pos hpassed] at hwrite
          exact ⟨strings, by rw [hflatten, hpassed]; rfl, hwrite⟩
        · rw [if_neg hpassed] at hwrite
          exact ⟨(s.write convert bytes none).passed :: strings, by rw [List.flatten_cons, hflatten], hwrite⟩
    · rw [if_pos hresult] at h
      cases h

/-- **Text in pieces reaches the parser character by character.**  At any time the parser is where the complete
characters bring it, whatever the cuts. -/
theorem parsed_exact (hengine : engine.AcceptsAll) (hexact : ∀ t, convert (encode t) = utf16 t)
    (hroom : ∀ bytes, (convert bytes).length ≤ bytes.length) (s : Utf8TerminalStream) (m : StateMachine)
    (t : List Char) (chunks : List (List UInt8)) (rest : List UInt8) (hne : ∀ bytes ∈ chunks, bytes ≠ [])
    (ht : chunks.flatten ++ rest = encode t) (hlen : (encode t).length < 2 ^ 64)
    (hfit : Utf8TerminalStream.FitInt chunks) :
    ∃ done todo tail back t', t = done ++ todo ∧ chunks.flatten = encode done ++ tail ∧ Cut todo tail back ∧
      (rest = [] → done = t ∧ tail = []) ∧ writeAll engine convert ⟨s.begin, m⟩ chunks = .ok t' ∧
      t'.machine.observed = ((utf16 done).foldl (processCharacter engine) m).observed := by
  obtain ⟨done, todo, tail, back, s', hsplit, hbytes, hcut, hrest, hall, -⟩ :=
    Utf8TerminalStream.writeAll_begin hexact hroom s hne ht hlen hfit
  obtain ⟨strings, hflatten, hparsed⟩ := @writeAll_strings engine _ _ _ _ _ hall m
  refine ⟨done, todo, tail, back, _, hsplit, hbytes, hcut, hrest, hparsed, ?_⟩
  obtain ⟨steps, hsteps⟩ := processStrings_steps engine m strings
  rw [hsteps.result, steps_observed hengine hsteps.fit, hsteps.characters, hflatten]

/-- One letter in two writes, printed by the second. -/
theorem parsed_exact_twoBytes :
    let machine : StateMachine := { parserMode := ⟨false, true⟩ }
    ∃ t', writeAll acceptingEngine replaced ⟨({} : Utf8TerminalStream).begin, machine⟩ [[0xc4], [0x8d]] = .ok t' ∧
      t'.machine.observed = (processCharacter acceptingEngine machine 0x10d).observed := by
  intro machine
  obtain ⟨done, todo, tail, back, t', -, -, -, hall, hok, hmachine⟩ :=
    parsed_exact acceptingEngine_acceptsAll replaced_encode length_replaced_le {} machine ['č'] [[0xc4], [0x8d]] []
      (by decide) (by decide) (by decide) (Utf8TerminalStream.fitInt_of_length (by decide))
  obtain ⟨rfl, rfl⟩ := hall rfl
  exact ⟨t', hok, hmachine⟩

end ParsedStream

end VT7.Native
