import ShaderEmbed.File.Access

/-!
# Streams

A running script has numbered streams, each of which leads to a channel; several streams may lead to
one. A channel is bytes that are still to be read, bytes that have been collected, an open file with
a position in it, or a device. Channels are numbered in the order in which they were opened. What is
read or written goes on where the last use of the channel ended, whichever stream it was used by.
-/

namespace ShaderEmbed.Shell

/-- What an open file or device may be used for. Where a file is appended to, all that is written
goes to its end. -/
structure Access where
  reads : Bool
  writes : Bool
  appends : Bool := false
deriving DecidableEq

/-- What a stream leads to. -/
inductive Channel where
  | source (rest : Bytes)
  | collected (written : Bytes)
  | file (place : Place) (position : Nat) (access : Access)
  | device (kind : Device) (access : Access)
deriving DecidableEq

/-- The streams, each with the number of its channel, and the channels. -/
structure Streams where
  table : List (Nat × Nat)
  channels : List Channel

namespace Streams

/-- The three streams that a script starts with: an input, and two outputs that are collected. -/
def start (input : Channel) : Streams :=
  ⟨[(0, 0), (1, 1), (2, 2)], [input, .collected [], .collected []]⟩

/-- The number of the channel that a stream leads to, if it is open. -/
def number? (streams : Streams) (stream : Nat) : Option Nat := streams.table.lookup stream

def channel? (streams : Streams) (stream : Nat) : Option Channel :=
  (streams.number? stream).bind fun number => streams.channels[number]?

def close (streams : Streams) (stream : Nat) : Streams :=
  { streams with table := streams.table.filter (·.1 ≠ stream) }

/-- Lets a stream lead to a channel that is there, or closes it. -/
def lead (streams : Streams) (stream : Nat) (number : Option Nat) : Streams :=
  match number with
  | none => streams.close stream
  | some number =>
    { streams.close stream with table := (stream, number) :: (streams.close stream).table }

/-- Lets a stream lead to a new channel. -/
def connect (streams : Streams) (stream : Nat) (channel : Channel) : Streams :=
  { streams with channels := streams.channels ++ [channel] }.lead stream
    (some streams.channels.length)

/-- The streams without the last channels if nothing leads to them. So many channels are kept in any
case. -/
def trim (kept : Nat) (streams : Streams) : Streams :=
  { streams with
    channels := streams.channels.take (streams.table.foldl (fun n entry =>
      max n (entry.2 + 1)) kept) }

/-- The streams as they led before, with what has become of the channels. -/
def backTo (before streams : Streams) : Streams :=
  trim before.channels.length { streams with table := before.table }

/-- The streams with some of them led back to where they led before. -/
def backFor (before : Streams) (changed : List Nat) (streams : Streams) : Streams :=
  trim before.channels.length
    (changed.foldl (fun all stream => all.lead stream (before.number? stream)) streams)

/-- The streams with another channel in place of the one that a stream leads to. -/
def setChannel (streams : Streams) (stream : Nat) (channel : Channel) : Streams :=
  match streams.number? stream with
  | none => streams
  | some number => { streams with channels := streams.channels.set number channel }

def readable (streams : Streams) (tree : FileTree) (stream : Nat) : Except Errno Bytes :=
  match streams.channel? stream with
  | some (.source rest) => .ok rest
  | some (.file place position access) =>
    if !access.reads then .error .badStream
    else
      match tree.get? place with
      | some (.file content _) => .ok (content.drop position)
      | some .directory => .error .isDirectory
      | _ => .ok []
  | some (.device _ access) => if access.reads then .ok [] else .error .badStream
  | _ => .error .badStream

/-- The streams after so many bytes were read from one of them. -/
def pass (streams : Streams) (stream count : Nat) : Streams :=
  match streams.channel? stream with
  | some (.source rest) => streams.setChannel stream (.source (rest.drop count))
  | some (.file place position access) =>
    streams.setChannel stream (.file place (position + count) access)
  | _ => streams

/-- Content with bytes written over it from a position on. What lies between its end and the
position is zeros. -/
def writtenOver (content : Bytes) (position : Nat) (bytes : Bytes) : Bytes :=
  content.take position ++ List.replicate (position - content.length) 0 ++ bytes ++
    content.drop (position + bytes.length)

def write (streams : Streams) (tree : FileTree) (stream : Nat)
    (bytes : Bytes) : Except Errno (Streams × FileTree) :=
  match streams.channel? stream with
  | some (.collected written) =>
    .ok (streams.setChannel stream (.collected (written ++ bytes)), tree)
  | some (.device .full access) =>
    if !access.writes then .error .badStream else if bytes = [] then .ok (streams, tree) else
      .error .noSpace
  | some (.device _ access) => if access.writes then .ok (streams, tree) else .error .badStream
  | some (.file place position access) =>
    if !access.writes then .error .badStream
    else
      match tree.get? place with
      | some (.file content runnable) =>
        let position := if access.appends then content.length else position
        .ok (streams.setChannel stream (.file place (position + bytes.length) access),
          tree.put place (.file (writtenOver content position bytes) runnable))
      | _ => .ok (streams, tree)
  | _ => .error .badStream

def collected (streams : Streams) (number : Nat) : Bytes :=
  match streams.channels[number]? with
  | some (.collected written) => written
  | _ => []

end Streams

end ShaderEmbed.Shell
