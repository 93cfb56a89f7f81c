import SdvZone.CheckedMemory
import SdvZone.McuServiceDiscovery

/-! `sd_parse` (`MCU/src/someip_sd.cpp`) as the machine executes it, with every access and operation
checked; the loops run on their own conditions. -/

namespace SdvZone.Mcu.Checked

open Wire

/-- A write to `out->entries[index]`. -/
def storeEntry (out : SdParsed) (index : Nat) (write : SdEntry → SdEntry) : Run SdParsed :=
  if h : index < 4 then .ok { out with entries := out.entries.set index (write out.entries[index]) h }
  else .error (.write index)

/-- A write to `out->options[index]`. -/
def storeOption (out : SdParsed) (index : Nat) (write : SdOptionIp4 → SdOptionIp4) : Run SdParsed :=
  if h : index < 4 then .ok { out with options := out.options.set index (write out.options[index]) h }
  else .error (.write index)

/-- The body of the loop over the entries. -/
def parseEntry (buf : Bytes) (off : Nat) (out : SdParsed) : Run SdParsed := do
  let e ← add hdrSize off
  let type ← load buf e
  let serviceId ← loadU16 buf (← add e 4)
  let instanceId ← loadU16 buf (← add e 6)
  let majorVersion ← load buf (← add e 8)
  let ttl2 ← load buf (← add e 9)
  let ttl1 ← load buf (← add e 10)
  let ttl0 ← load buf (← add e 11)
  let out ← storeEntry out (off / sdEntrySize) fun d => { d with
    type := type
    serviceId := serviceId
    instanceId := instanceId
    majorVersion := majorVersion
    ttl := (ttl2.toUInt32 <<< 16) ||| (ttl1.toUInt32 <<< 8) ||| ttl0.toUInt32 }
  if type = sdEntrySubscribeEventgroup ∨ type = sdEntrySubscribeEventgroupAck then
    let eventgroupId ← loadU16 buf (← add e 14)
    storeEntry out (off / sdEntrySize) fun d => { d with eventgroupId := eventgroupId }
  else return out

/-- `for (off = 0; off < entries_len; off += SD_ENTRY_SIZE)`. -/
def parseEntries (buf : Bytes) (entriesLen off : Nat) (out : SdParsed) : Run SdParsed :=
  if off < entriesLen then do
    let out ← parseEntry buf off out
    if off + sdEntrySize < 2 ^ 32 then parseEntries buf entriesLen (off + sdEntrySize) out
    else .error .addition
  else .ok out
termination_by entriesLen - off
decreasing_by unfold sdEntrySize; omega

/-- The body of the loop over the options: the block to go on behind, or `none` for `break`. -/
def parseOption (buf : Bytes) (base optionsLen i optOff : Nat) (out : SdParsed) :
    Run (Option Nat × SdParsed) := do
  let o ← add base optOff
  let length ← loadU16 buf o
  let block ← add 3 length.toNat
  if (← sub optionsLen optOff) < block then return (none, out)
  else
    let type ← load buf (← add o 2)
    if type = sdOptIp4Endpoint ∧ sdIp4OptionSize ≤ block then
      let a ← load buf (← add o 4)
      let b ← load buf (← add o 5)
      let c ← load buf (← add o 6)
      let d ← load buf (← add o 7)
      let l4Proto ← load buf (← add o 9)
      let port ← loadU16 buf (← add o 10)
      let out ← storeOption out i fun _ =>
        { type := type, address := #v[a, b, c, d], l4Proto := l4Proto, port := port }
      return (some block, { out with optionCount := UInt8.ofNat (i + 1) })
    else return (some block, out)

/-- `for (i = 0; i < SD_MAX_OPTIONS && opt_off + 3u <= options_len; i++)`. -/
def parseOptions (buf : Bytes) (base optionsLen i optOff : Nat) (out : SdParsed) : Run SdParsed :=
  if i < sdMaxOptions then do
    if (← add optOff 3) ≤ optionsLen then
      match ← parseOption buf base optionsLen i optOff out with
      | (none, out) => return out
      | (some block, out) => parseOptions buf base optionsLen (i + 1) (← add optOff block) out
    else return out
  else .ok out
termination_by sdMaxOptions - i

/-- The value returned, and `*out` afterwards; `len` is the size of the buffer. -/
def sdParse (buf : Option Bytes) (out : Option SdParsed) : Run (Int × Option SdParsed) :=
  match buf, out with
  | some buf, some _ => do
      let len := buf.length
      let out := SdParsed.zero
      if len < (← add hdrSize 4) then return (-1, some out)
      else if (← loadU16 buf 0) ≠ sdServiceId then return (-1, some out)
      else if (← loadU16 buf 2) ≠ sdMethodId then return (-1, some out)
      else
        let entriesLen := (← loadU32 buf 20).toNat
        if entriesLen % sdEntrySize ≠ 0 ∨ sdMaxEntries < entriesLen / sdEntrySize then return (-1, some out)
        else
          let options ← add (← add hdrSize entriesLen) 4
          if len < options then return (-1, some out)
          else
            let optionsLen := (← loadU32 buf (← add hdrSize entriesLen)).toNat
            if (← sub len options) < optionsLen then return (-1, some out)
            else
              let flags ← load buf 16
              let sessionId ← loadU16 buf 10
              let out ← parseEntries buf entriesLen 0 { out with
                flags := flags
                sessionId := sessionId
                entryCount := UInt8.ofNat (entriesLen / sdEntrySize) }
              let out ← parseOptions buf options optionsLen 0 0 out
              return (0, some out)
  | _, _ => return (-1, out)

end SdvZone.Mcu.Checked
