import SeeHandshake.Bytes
import SeeHandshake.Lib.Hex

/-!
# Hexadecimal views of bytes

`util/mod.rs`: bytes as hexadecimal text, in one row or as a dump with offsets and an ASCII sidebar.
-/

namespace SeeHandshake

open Lib

/-- Bytes as pairs of digits without anything between them. -/
def hex (bytes : Bytes) : List Char := bytes.flatMap hexPair

/-- Bytes as pairs of digits with a space between them. -/
def hexInline (bytes : Bytes) : List Char := spacedPairs bytes

/-- The character of a byte in the sidebar. -/
def sidebarChar (b : UInt8) : Char := if 0x20 ≤ b && b < 0x7f then Char.ofNat b.toNat else '.'

/-- The number of bytes in a row: `line_width.clamp(1, 64)`. -/
def dumpWidth (lineWidth : ℕ) : ℕ := max 1 (min lineWidth 64)

/-- The pairs of digits of a row, padded so that the sidebars are aligned. -/
def hexColumn (width : ℕ) (chunk : Bytes) : List Char :=
  pairColumns chunk ++ (List.replicate (width - chunk.length) [' ', ' ', ' ']).flatten

/-- A row of a dump. -/
def dumpRow (width row : ℕ) (chunk : Bytes) : List Char :=
  hexPadded 4 (row * width) ++ ([':', ' ', ' '] ++ (hexColumn width chunk ++ (' ' :: '|' ::
    (chunk.map sidebarChar ++ ['|']))))

/-- A dump of bytes. -/
def hexDump (bytes : Bytes) (lineWidth : ℕ) : List Char :=
  let width := dumpWidth lineWidth
  ((chunks width bytes).mapIdx fun row chunk => dumpRow width row chunk ++ ['\n']).flatten

/-! ## Reading a dump -/

/-- The bytes of a row of a dump. -/
def readDumpRow (row : List Char) : Option Bytes := readPairs ((row.dropWhile (· ≠ ':')).drop 3)

/-- The bytes of the rows of a dump. -/
def readDumpRows : List (List Char) → Option Bytes
  | [] => some []
  | row :: rows => do
    let bytes ← readDumpRow row
    let rest ← readDumpRows rows
    return bytes ++ rest

/-- The bytes of a dump. -/
def readDump (text : List Char) : Option Bytes := readDumpRows (lines text)

end SeeHandshake
