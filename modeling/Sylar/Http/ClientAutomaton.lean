import Sylar.Lib.RangeTable

/-! The automaton of the generated response parser, with the numbers of
`httpclient_parser.rl.cc`. It reads a response head or, from the same first state,
the size line of a chunk; state 0 is the error state. -/
namespace Sylar.Http.Client

open Lib

/-- The actions of the grammar. `start_value` is the same code as `mark`. -/
inductive Action where
  | mark
  | start_field
  | write_field
  | write_content_len
  | write_connection_close
  | write_value
  | reason_phrase
  | status_code
  | http_version
  | chunk_size
  | trans_chunked
  | done
deriving Repr, DecidableEq

/-- A jump of the generated code: the actions at its label and the state. -/
structure Arc where
  actions : List Action
  target : Nat
deriving Repr, DecidableEq

namespace Arc

def st (n : Nat) : Arc := ⟨[], n⟩
def tr0 : Arc := ⟨[.mark], 2⟩
def tr2 : Arc := ⟨[.mark], 8⟩
def tr3 : Arc := ⟨[.chunk_size, .done], 120⟩
def tr4 : Arc := ⟨[.chunk_size], 3⟩
def tr6 : Arc := ⟨[.chunk_size], 4⟩
def tr7 : Arc := ⟨[.done], 120⟩
def tr8 : Arc := ⟨[.start_field], 5⟩
def tr9 : Arc := ⟨[.write_field, .mark, .write_value, .done], 120⟩
def tr10 : Arc := ⟨[.write_field, .mark, .write_value], 3⟩
def tr12 : Arc := ⟨[.write_field, .mark, .write_value], 4⟩
def tr13 : Arc := ⟨[.write_field, .mark], 6⟩
def tr14 : Arc := ⟨[.mark], 7⟩
def tr15 : Arc := ⟨[.write_value, .done], 120⟩
def tr16 : Arc := ⟨[.write_value], 3⟩
def tr18 : Arc := ⟨[.write_value], 4⟩
def tr26 : Arc := ⟨[.http_version], 16⟩
def tr27 : Arc := ⟨[.mark], 17⟩
def tr28 : Arc := ⟨[.status_code], 18⟩
def tr30 : Arc := ⟨[.mark], 19⟩
def tr32 : Arc := ⟨[.reason_phrase], 20⟩
def tr33 : Arc := ⟨[.reason_phrase], 24⟩
def tr35 : Arc := ⟨[.start_field], 21⟩
def tr36 : Arc := ⟨[.start_field], 25⟩
def tr37 : Arc := ⟨[.start_field], 44⟩
def tr39 : Arc := ⟨[.write_field], 22⟩
def tr40 : Arc := ⟨[.mark], 23⟩
def tr41 : Arc := ⟨[.mark], 22⟩
def tr42 : Arc := ⟨[.mark, .write_value], 20⟩
def tr43 : Arc := ⟨[.mark, .write_value], 24⟩
def tr45 : Arc := ⟨[.write_value], 20⟩
def tr46 : Arc := ⟨[.write_value], 24⟩
def tr58 : Arc := ⟨[.write_field], 35⟩
def tr59 : Arc := ⟨[.mark], 35⟩
def tr60 : Arc := ⟨[.mark, .write_value], 36⟩
def tr61 : Arc := ⟨[.mark, .write_value], 95⟩
def tr62 : Arc := ⟨[.mark], 96⟩
def tr64 : Arc := ⟨[.done], 122⟩
def tr66 : Arc := ⟨[.start_field], 90⟩
def tr74 : Arc := ⟨[.write_connection_close, .done], 120⟩
def tr75 : Arc := ⟨[.write_connection_close], 3⟩
def tr76 : Arc := ⟨[.write_connection_close, .start_field], 21⟩
def tr77 : Arc := ⟨[.write_connection_close, .start_field], 25⟩
def tr78 : Arc := ⟨[.write_connection_close, .start_field], 44⟩
def tr95 : Arc := ⟨[.write_field], 61⟩
def tr96 : Arc := ⟨[.mark], 61⟩
def tr97 : Arc := ⟨[.mark, .write_value], 62⟩
def tr98 : Arc := ⟨[.mark, .write_value], 80⟩
def tr99 : Arc := ⟨[.mark], 81⟩
def tr101 : Arc := ⟨[.done], 121⟩
def tr103 : Arc := ⟨[.mark, .start_field], 73⟩
def tr104 : Arc := ⟨[.mark], 64⟩
def tr111 : Arc := ⟨[.write_value, .trans_chunked], 20⟩
def tr112 : Arc := ⟨[.write_value], 71⟩
def tr113 : Arc := ⟨[.trans_chunked], 20⟩
def tr136 : Arc := ⟨[.write_value], 43⟩
def tr137 : Arc := ⟨[.write_value], 88⟩
def tr148 : Arc := ⟨[.write_field], 112⟩
def tr149 : Arc := ⟨[.mark], 112⟩
def tr150 : Arc := ⟨[.mark, .write_value], 113⟩
def tr151 : Arc := ⟨[.mark, .write_value], 118⟩
def tr152 : Arc := ⟨[.mark], 119⟩
def tr154 : Arc := ⟨[.done], 123⟩
def tr156 : Arc := ⟨[.mark, .start_field], 117⟩
def tr157 : Arc := ⟨[.mark], 115⟩
def tr158 : Arc := ⟨[.write_content_len, .write_value], 20⟩
def tr159 : Arc := ⟨[.write_content_len, .write_value], 24⟩

end Arc

open Client.Arc

def states0 : List (RangeTable.Row Arc) :=
  [[],
   [(48, 57, tr0), (65, 70, tr0), (72, 72, tr2), (97, 102, tr0)],
   [(10, 10, tr3), (13, 13, tr4), (48, 57, st 2), (59, 59, tr6), (65, 70, st 2), (97, 102, st 2)],
   [(10, 10, tr7)],
   [(33, 33, tr8), (35, 39, tr8), (42, 43, tr8), (45, 46, tr8), (48, 57, tr8), (65, 90, tr8),
    (94, 122, tr8), (124, 124, tr8), (126, 126, tr8)],
   [(10, 10, tr9), (13, 13, tr10), (33, 33, st 5), (35, 39, st 5), (42, 43, st 5),
    (45, 46, st 5), (48, 57, st 5), (59, 59, tr12), (61, 61, tr13), (65, 90, st 5),
    (94, 122, st 5), (124, 124, st 5), (126, 126, st 5)],
   [(33, 33, tr14), (35, 39, tr14), (42, 43, tr14), (45, 46, tr14), (48, 57, tr14),
    (65, 90, tr14), (94, 122, tr14), (124, 124, tr14), (126, 126, tr14)],
   [(10, 10, tr15), (13, 13, tr16), (33, 33, st 7), (35, 39, st 7), (42, 43, st 7),
    (45, 46, st 7), (48, 57, st 7), (59, 59, tr18), (65, 90, st 7), (94, 122, st 7),
    (124, 124, st 7), (126, 126, st 7)],
   [(84, 84, st 9)],
   [(84, 84, st 10)],
   [(80, 80, st 11)],
   [(47, 47, st 12)],
   [(48, 57, st 13)],
   [(46, 46, st 14), (48, 57, st 13)],
   [(48, 57, st 15)],
   [(32, 32, tr26), (48, 57, st 15)],
   [(48, 57, tr27)],
   [(32, 32, tr28), (48, 57, st 17)],
   [(0, 9, tr30), (11, 255, tr30)],
   [(0, 9, st 19), (10, 10, tr32), (11, 12, st 19), (13, 13, tr33), (14, 255, st 19)],
   [(10, 10, tr7), (13, 13, st 3), (33, 33, tr35), (35, 39, tr35), (42, 43, tr35),
    (45, 46, tr35), (48, 57, tr35), (65, 66, tr35), (67, 67, tr36), (68, 83, tr35),
    (84, 84, tr37), (85, 90, tr35), (94, 98, tr35), (99, 99, tr36), (100, 115, tr35),
    (116, 116, tr37), (117, 122, tr35), (124, 124, tr35), (126, 126, tr35)],
   [(33, 33, st 21), (35, 39, st 21), (42, 43, st 21), (45, 46, st 21), (48, 57, st 21),
    (58, 58, tr39), (65, 90, st 21), (94, 122, st 21), (124, 124, st 21), (126, 126, st 21)],
   [(0, 8, tr40), (9, 9, tr41), (10, 10, tr42), (11, 12, tr41), (13, 13, tr43), (14, 31, tr40),
    (32, 32, tr41), (33, 255, tr40)],
   [(0, 9, st 23), (10, 10, tr45), (11, 12, st 23), (13, 13, tr46), (14, 255, st 23)],
   [(10, 10, st 20)],
   [(33, 33, st 21), (35, 39, st 21), (42, 43, st 21), (45, 46, st 21), (48, 57, st 21),
    (58, 58, tr39), (65, 78, st 21), (79, 79, st 26), (80, 90, st 21), (94, 110, st 21),
    (111, 111, st 26), (112, 122, st 21), (124, 124, st 21), (126, 126, st 21)],
   [(33, 33, st 21), (35, 39, st 21), (42, 43, st 21), (45, 46, st 21), (48, 57, st 21),
    (58, 58, tr39), (65, 77, st 21), (78, 78, st 27), (79, 90, st 21), (94, 109, st 21),
    (110, 110, st 27), (111, 122, st 21), (124, 124, st 21), (126, 126, st 21)],
   [(33, 33, st 21), (35, 39, st 21), (42, 43, st 21), (45, 46, st 21), (48, 57, st 21),
    (58, 58, tr39), (65, 77, st 21), (78, 78, st 28), (79, 83, st 21), (84, 84, st 101),
    (85, 90, st 21), (94, 109, st 21), (110, 110, st 28), (111, 115, st 21), (116, 116, st 101),
    (117, 122, st 21), (124, 124, st 21), (126, 126, st 21)],
   [(33, 33, st 21), (35, 39, st 21), (42, 43, st 21), (45, 46, st 21), (48, 57, st 21),
    (58, 58, tr39), (65, 68, st 21), (69, 69, st 29), (70, 90, st 21), (94, 100, st 21),
    (101, 101, st 29), (102, 122, st 21), (124, 124, st 21), (126, 126, st 21)],
   [(33, 33, st 21), (35, 39, st 21), (42, 43, st 21), (45, 46, st 21), (48, 57, st 21),
    (58, 58, tr39), (65, 66, st 21), (67, 67, st 30), (68, 90, st 21), (94, 98, st 21),
    (99, 99, st 30), (100, 122, st 21), (124, 124, st 21), (126, 126, st 21)],
   [(33, 33, st 21), (35, 39, st 21), (42, 43, st 21), (45, 46, st 21), (48, 57, st 21),
    (58, 58, tr39), (65, 83, st 21), (84, 84, st 31), (85, 90, st 21), (94, 115, st 21),
    (116, 116, st 31), (117, 122, st 21), (124, 124, st 21), (126, 126, st 21)],
   [(33, 33, st 21), (35, 39, st 21), (42, 43, st 21), (45, 46, st 21), (48, 57, st 21),
    (58, 58, tr39), (65, 72, st 21), (73, 73, st 32), (74, 90, st 21), (94, 104, st 21),
    (105, 105, st 32), (106, 122, st 21), (124, 124, st 21), (126, 126, st 21)],
   [(33, 33, st 21), (35, 39, st 21), (42, 43, st 21), (45, 46, st 21), (48, 57, st 21),
    (58, 58, tr39), (65, 78, st 21), (79, 79, st 33), (80, 90, st 21), (94, 110, st 21),
    (111, 111, st 33), (112, 122, st 21), (124, 124, st 21), (126, 126, st 21)],
   [(33, 33, st 21), (35, 39, st 21), (42, 43, st 21), (45, 46, st 21), (48, 57, st 21),
    (58, 58, tr39), (65, 77, st 21), (78, 78, st 34), (79, 90, st 21), (94, 109, st 21),
    (110, 110, st 34), (111, 122, st 21), (124, 124, st 21), (126, 126, st 21)],
   [(33, 33, st 21), (35, 39, st 21), (42, 43, st 21), (45, 46, st 21), (48, 57, st 21),
    (58, 58, tr58), (65, 90, st 21), (94, 122, st 21), (124, 124, st 21), (126, 126, st 21)],
   [(0, 8, tr40), (9, 9, tr59), (10, 10, tr60), (11, 12, tr59), (13, 13, tr61), (14, 31, tr40),
    (32, 32, tr59), (33, 66, tr40), (67, 67, tr62), (68, 98, tr40), (99, 99, tr62),
    (100, 255, tr40)],
   [(9, 9, st 37), (10, 10, tr64), (11, 12, st 37), (13, 13, st 89), (32, 32, st 37),
    (33, 33, tr35), (35, 39, tr35), (42, 43, tr35), (45, 46, tr35), (48, 57, tr35),
    (65, 66, tr35), (67, 67, tr66), (68, 83, tr35), (84, 84, tr37), (85, 90, tr35),
    (94, 98, tr35), (99, 99, tr66), (100, 115, tr35), (116, 116, tr37), (117, 122, tr35),
    (124, 124, tr35), (126, 126, tr35)],
   [(9, 13, st 37), (32, 32, st 37), (67, 67, st 38), (99, 99, st 38)],
   [(76, 76, st 39), (108, 108, st 39)],
   [(79, 79, st 40), (111, 111, st 40)],
   [(83, 83, st 41), (115, 115, st 41)],
   [(69, 69, st 42), (101, 101, st 42)],
   [(10, 10, st 43), (13, 13, st 88)],
   [(10, 10, tr74), (13, 13, tr75), (33, 33, tr76), (35, 39, tr76), (42, 43, tr76),
    (45, 46, tr76), (48, 57, tr76), (65, 66, tr76), (67, 67, tr77), (68, 83, tr76),
    (84, 84, tr78), (85, 90, tr76), (94, 98, tr76), (99, 99, tr77), (100, 115, tr76),
    (116, 116, tr78), (117, 122, tr76), (124, 124, tr76), (126, 126, tr76)],
   [(33, 33, st 21), (35, 39, st 21), (42, 43, st 21), (45, 46, st 21), (48, 57, st 21),
    (58, 58, tr39), (65, 81, st 21), (82, 82, st 45), (83, 90, st 21), (94, 113, st 21),
    (114, 114, st 45), (115, 122, st 21), (124, 124, st 21), (126, 126, st 21)],
   [(33, 33, st 21), (35, 39, st 21), (42, 43, st 21), (45, 46, st 21), (48, 57, st 21),
    (58, 58, tr39), (65, 65, st 46), (66, 90, st 21), (94, 96, st 21), (97, 97, st 46),
    (98, 122, st 21), (124, 124, st 21), (126, 126, st 21)],
   [(33, 33, st 21), (35, 39, st 21), (42, 43, st 21), (45, 46, st 21), (48, 57, st 21),
    (58, 58, tr39), (65, 77, st 21), (78, 78, st 47), (79, 90, st 21), (94, 109, st 21),
    (110, 110, st 47), (111, 122, st 21), (124, 124, st 21), (126, 126, st 21)],
   [(33, 33, st 21), (35, 39, st 21), (42, 43, st 21), (45, 46, st 21), (48, 57, st 21),
    (58, 58, tr39), (65, 82, st 21), (83, 83, st 48), (84, 90, st 21), (94, 114, st 21),
    (115, 115, st 48), (116, 122, st 21), (124, 124, st 21), (126, 126, st 21)],
   [(33, 33, st 21), (35, 39, st 21), (42, 43, st 21), (45, 46, st 21), (48, 57, st 21),
    (58, 58, tr39), (65, 69, st 21), (70, 70, st 49), (71, 90, st 21), (94, 101, st 21),
    (102, 102, st 49), (103, 122, st 21), (124, 124, st 21), (126, 126, st 21)],
   [(33, 33, st 21), (35, 39, st 21), (42, 43, st 21), (45, 46, st 21), (48, 57, st 21),
    (58, 58, tr39), (65, 68, st 21), (69, 69, st 50), (70, 90, st 21), (94, 100, st 21),
    (101, 101, st 50), (102, 122, st 21), (124, 124, st 21), (126, 126, st 21)]]

def states50 : List (RangeTable.Row Arc) :=
  [[(33, 33, st 21), (35, 39, st 21), (42, 43, st 21), (45, 46, st 21), (48, 57, st 21),
    (58, 58, tr39), (65, 81, st 21), (82, 82, st 51), (83, 90, st 21), (94, 113, st 21),
    (114, 114, st 51), (115, 122, st 21), (124, 124, st 21), (126, 126, st 21)],
   [(33, 33, st 21), (35, 39, st 21), (42, 43, st 21), (45, 45, st 52), (46, 46, st 21),
    (48, 57, st 21), (58, 58, tr39), (65, 90, st 21), (94, 122, st 21), (124, 124, st 21),
    (126, 126, st 21)],
   [(33, 33, st 21), (35, 39, st 21), (42, 43, st 21), (45, 46, st 21), (48, 57, st 21),
    (58, 58, tr39), (65, 68, st 21), (69, 69, st 53), (70, 90, st 21), (94, 100, st 21),
    (101, 101, st 53), (102, 122, st 21), (124, 124, st 21), (126, 126, st 21)],
   [(33, 33, st 21), (35, 39, st 21), (42, 43, st 21), (45, 46, st 21), (48, 57, st 21),
    (58, 58, tr39), (65, 77, st 21), (78, 78, st 54), (79, 90, st 21), (94, 109, st 21),
    (110, 110, st 54), (111, 122, st 21), (124, 124, st 21), (126, 126, st 21)],
   [(33, 33, st 21), (35, 39, st 21), (42, 43, st 21), (45, 46, st 21), (48, 57, st 21),
    (58, 58, tr39), (65, 66, st 21), (67, 67, st 55), (68, 90, st 21), (94, 98, st 21),
    (99, 99, st 55), (100, 122, st 21), (124, 124, st 21), (126, 126, st 21)],
   [(33, 33, st 21), (35, 39, st 21), (42, 43, st 21), (45, 46, st 21), (48, 57, st 21),
    (58, 58, tr39), (65, 78, st 21), (79, 79, st 56), (80, 90, st 21), (94, 110, st 21),
    (111, 111, st 56), (112, 122, st 21), (124, 124, st 21), (126, 126, st 21)],
   [(33, 33, st 21), (35, 39, st 21), (42, 43, st 21), (45, 46, st 21), (48, 57, st 21),
    (58, 58, tr39), (65, 67, st 21), (68, 68, st 57), (69, 90, st 21), (94, 99, st 21),
    (100, 100, st 57), (101, 122, st 21), (124, 124, st 21), (126, 126, st 21)],
   [(33, 33, st 21), (35, 39, st 21), (42, 43, st 21), (45, 46, st 21), (48, 57, st 21),
    (58, 58, tr39), (65, 72, st 21), (73, 73, st 58), (74, 90, st 21), (94, 104, st 21),
    (105, 105, st 58), (106, 122, st 21), (124, 124, st 21), (126, 126, st 21)],
   [(33, 33, st 21), (35, 39, st 21), (42, 43, st 21), (45, 46, st 21), (48, 57, st 21),
    (58, 58, tr39), (65, 77, st 21), (78, 78, st 59), (79, 90, st 21), (94, 109, st 21),
    (110, 110, st 59), (111, 122, st 21), (124, 124, st 21), (126, 126, st 21)],
   [(33, 33, st 21), (35, 39, st 21), (42, 43, st 21), (45, 46, st 21), (48, 57, st 21),
    (58, 58, tr39), (65, 70, st 21), (71, 71, st 60), (72, 90, st 21), (94, 102, st 21),
    (103, 103, st 60), (104, 122, st 21), (124, 124, st 21), (126, 126, st 21)],
   [(33, 33, st 21), (35, 39, st 21), (42, 43, st 21), (45, 46, st 21), (48, 57, st 21),
    (58, 58, tr95), (65, 90, st 21), (94, 122, st 21), (124, 124, st 21), (126, 126, st 21)],
   [(0, 8, tr40), (9, 9, tr96), (10, 10, tr97), (11, 12, tr96), (13, 13, tr98), (14, 31, tr40),
    (32, 32, tr96), (33, 66, tr40), (67, 67, tr99), (68, 98, tr40), (99, 99, tr99),
    (100, 255, tr40)],
   [(9, 9, st 63), (10, 10, tr101), (11, 12, st 63), (13, 13, st 72), (32, 32, st 63),
    (33, 33, tr35), (35, 39, tr35), (42, 43, tr35), (45, 46, tr35), (48, 57, tr35),
    (65, 66, tr35), (67, 67, tr103), (68, 83, tr35), (84, 84, tr37), (85, 90, tr35),
    (94, 98, tr35), (99, 99, tr103), (100, 115, tr35), (116, 116, tr37), (117, 122, tr35),
    (124, 124, tr35), (126, 126, tr35)],
   [(9, 13, st 63), (32, 32, st 63), (67, 67, tr104), (99, 99, tr104)],
   [(72, 72, st 65), (104, 104, st 65)],
   [(85, 85, st 66), (117, 117, st 66)],
   [(78, 78, st 67), (110, 110, st 67)],
   [(75, 75, st 68), (107, 107, st 68)],
   [(69, 69, st 69), (101, 101, st 69)],
   [(68, 68, st 70), (100, 100, st 70)],
   [(10, 10, tr111), (13, 13, tr112)],
   [(10, 10, tr113)],
   [(9, 9, st 63), (10, 10, tr101), (11, 13, st 63), (32, 32, st 63), (67, 67, tr104),
    (99, 99, tr104)],
   [(33, 33, st 21), (35, 39, st 21), (42, 43, st 21), (45, 46, st 21), (48, 57, st 21),
    (58, 58, tr39), (65, 71, st 21), (72, 72, st 74), (73, 78, st 21), (79, 79, st 26),
    (80, 90, st 21), (94, 103, st 21), (104, 104, st 74), (105, 110, st 21), (111, 111, st 26),
    (112, 122, st 21), (124, 124, st 21), (126, 126, st 21)],
   [(33, 33, st 21), (35, 39, st 21), (42, 43, st 21), (45, 46, st 21), (48, 57, st 21),
    (58, 58, tr39), (65, 84, st 21), (85, 85, st 75), (86, 90, st 21), (94, 116, st 21),
    (117, 117, st 75), (118, 122, st 21), (124, 124, st 21), (126, 126, st 21)],
   [(33, 33, st 21), (35, 39, st 21), (42, 43, st 21), (45, 46, st 21), (48, 57, st 21),
    (58, 58, tr39), (65, 77, st 21), (78, 78, st 76), (79, 90, st 21), (94, 109, st 21),
    (110, 110, st 76), (111, 122, st 21), (124, 124, st 21), (126, 126, st 21)],
   [(33, 33, st 21), (35, 39, st 21), (42, 43, st 21), (45, 46, st 21), (48, 57, st 21),
    (58, 58, tr39), (65, 74, st 21), (75, 75, st 77), (76, 90, st 21), (94, 106, st 21),
    (107, 107, st 77), (108, 122, st 21), (124, 124, st 21), (126, 126, st 21)],
   [(33, 33, st 21), (35, 39, st 21), (42, 43, st 21), (45, 46, st 21), (48, 57, st 21),
    (58, 58, tr39), (65, 68, st 21), (69, 69, st 78), (70, 90, st 21), (94, 100, st 21),
    (101, 101, st 78), (102, 122, st 21), (124, 124, st 21), (126, 126, st 21)],
   [(33, 33, st 21), (35, 39, st 21), (42, 43, st 21), (45, 46, st 21), (48, 57, st 21),
    (58, 58, tr39), (65, 67, st 21), (68, 68, st 79), (69, 90, st 21), (94, 99, st 21),
    (100, 100, st 79), (101, 122, st 21), (124, 124, st 21), (126, 126, st 21)],
   [(10, 10, tr111), (13, 13, tr112), (33, 33, st 21), (35, 39, st 21), (42, 43, st 21),
    (45, 46, st 21), (48, 57, st 21), (58, 58, tr39), (65, 90, st 21), (94, 122, st 21),
    (124, 124, st 21), (126, 126, st 21)],
   [(9, 9, st 63), (10, 10, st 62), (11, 13, st 63), (32, 32, st 63), (67, 67, tr104),
    (99, 99, tr104)],
   [(0, 9, st 23), (10, 10, tr45), (11, 12, st 23), (13, 13, tr46), (14, 71, st 23),
    (72, 72, st 82), (73, 103, st 23), (104, 104, st 82), (105, 255, st 23)],
   [(0, 9, st 23), (10, 10, tr45), (11, 12, st 23), (13, 13, tr46), (14, 84, st 23),
    (85, 85, st 83), (86, 116, st 23), (117, 117, st 83), (118, 255, st 23)],
   [(0, 9, st 23), (10, 10, tr45), (11, 12, st 23), (13, 13, tr46), (14, 77, st 23),
    (78, 78, st 84), (79, 109, st 23), (110, 110, st 84), (111, 255, st 23)],
   [(0, 9, st 23), (10, 10, tr45), (11, 12, st 23), (13, 13, tr46), (14, 74, st 23),
    (75, 75, st 85), (76, 106, st 23), (107, 107, st 85), (108, 255, st 23)],
   [(0, 9, st 23), (10, 10, tr45), (11, 12, st 23), (13, 13, tr46), (14, 68, st 23),
    (69, 69, st 86), (70, 100, st 23), (101, 101, st 86), (102, 255, st 23)],
   [(0, 9, st 23), (10, 10, tr45), (11, 12, st 23), (13, 13, tr46), (14, 67, st 23),
    (68, 68, st 87), (69, 99, st 23), (100, 100, st 87), (101, 255, st 23)],
   [(0, 9, st 23), (10, 10, tr111), (11, 12, st 23), (13, 13, tr112), (14, 255, st 23)],
   [(10, 10, st 43)],
   [(9, 9, st 37), (10, 10, tr64), (11, 13, st 37), (32, 32, st 37), (67, 67, st 38),
    (99, 99, st 38)],
   [(33, 33, st 21), (35, 39, st 21), (42, 43, st 21), (45, 46, st 21), (48, 57, st 21),
    (58, 58, tr39), (65, 75, st 21), (76, 76, st 91), (77, 78, st 21), (79, 79, st 26),
    (80, 90, st 21), (94, 107, st 21), (108, 108, st 91), (109, 110, st 21), (111, 111, st 26),
    (112, 122, st 21), (124, 124, st 21), (126, 126, st 21)],
   [(33, 33, st 21), (35, 39, st 21), (42, 43, st 21), (45, 46, st 21), (48, 57, st 21),
    (58, 58, tr39), (65, 78, st 21), (79, 79, st 92), (80, 90, st 21), (94, 110, st 21),
    (111, 111, st 92), (112, 122, st 21), (124, 124, st 21), (126, 126, st 21)],
   [(33, 33, st 21), (35, 39, st 21), (42, 43, st 21), (45, 46, st 21), (48, 57, st 21),
    (58, 58, tr39), (65, 82, st 21), (83, 83, st 93), (84, 90, st 21), (94, 114, st 21),
    (115, 115, st 93), (116, 122, st 21), (124, 124, st 21), (126, 126, st 21)],
   [(33, 33, st 21), (35, 39, st 21), (42, 43, st 21), (45, 46, st 21), (48, 57, st 21),
    (58, 58, tr39), (65, 68, st 21), (69, 69, st 94), (70, 90, st 21), (94, 100, st 21),
    (101, 101, st 94), (102, 122, st 21), (124, 124, st 21), (126, 126, st 21)],
   [(10, 10, st 43), (13, 13, st 88), (33, 33, st 21), (35, 39, st 21), (42, 43, st 21),
    (45, 46, st 21), (48, 57, st 21), (58, 58, tr39), (65, 90, st 21), (94, 122, st 21),
    (124, 124, st 21), (126, 126, st 21)],
   [(9, 9, st 37), (10, 10, st 36), (11, 13, st 37), (32, 32, st 37), (67, 67, st 38),
    (99, 99, st 38)],
   [(0, 9, st 23), (10, 10, tr45), (11, 12, st 23), (13, 13, tr46), (14, 75, st 23),
    (76, 76, st 97), (77, 107, st 23), (108, 108, st 97), (109, 255, st 23)],
   [(0, 9, st 23), (10, 10, tr45), (11, 12, st 23), (13, 13, tr46), (14, 78, st 23),
    (79, 79, st 98), (80, 110, st 23), (111, 111, st 98), (112, 255, st 23)],
   [(0, 9, st 23), (10, 10, tr45), (11, 12, st 23), (13, 13, tr46), (14, 82, st 23),
    (83, 83, st 99), (84, 114, st 23), (115, 115, st 99), (116, 255, st 23)],
   [(0, 9, st 23), (10, 10, tr45), (11, 12, st 23), (13, 13, tr46), (14, 68, st 23),
    (69, 69, st 100), (70, 100, st 23), (101, 101, st 100), (102, 255, st 23)]]

def states100 : List (RangeTable.Row Arc) :=
  [[(0, 9, st 23), (10, 10, tr136), (11, 12, st 23), (13, 13, tr137), (14, 255, st 23)],
   [(33, 33, st 21), (35, 39, st 21), (42, 43, st 21), (45, 46, st 21), (48, 57, st 21),
    (58, 58, tr39), (65, 68, st 21), (69, 69, st 102), (70, 90, st 21), (94, 100, st 21),
    (101, 101, st 102), (102, 122, st 21), (124, 124, st 21), (126, 126, st 21)],
   [(33, 33, st 21), (35, 39, st 21), (42, 43, st 21), (45, 46, st 21), (48, 57, st 21),
    (58, 58, tr39), (65, 77, st 21), (78, 78, st 103), (79, 90, st 21), (94, 109, st 21),
    (110, 110, st 103), (111, 122, st 21), (124, 124, st 21), (126, 126, st 21)],
   [(33, 33, st 21), (35, 39, st 21), (42, 43, st 21), (45, 46, st 21), (48, 57, st 21),
    (58, 58, tr39), (65, 83, st 21), (84, 84, st 104), (85, 90, st 21), (94, 115, st 21),
    (116, 116, st 104), (117, 122, st 21), (124, 124, st 21), (126, 126, st 21)],
   [(33, 33, st 21), (35, 39, st 21), (42, 43, st 21), (45, 45, st 105), (46, 46, st 21),
    (48, 57, st 21), (58, 58, tr39), (65, 90, st 21), (94, 122, st 21), (124, 124, st 21),
    (126, 126, st 21)],
   [(33, 33, st 21), (35, 39, st 21), (42, 43, st 21), (45, 46, st 21), (48, 57, st 21),
    (58, 58, tr39), (65, 75, st 21), (76, 76, st 106), (77, 90, st 21), (94, 107, st 21),
    (108, 108, st 106), (109, 122, st 21), (124, 124, st 21), (126, 126, st 21)],
   [(33, 33, st 21), (35, 39, st 21), (42, 43, st 21), (45, 46, st 21), (48, 57, st 21),
    (58, 58, tr39), (65, 68, st 21), (69, 69, st 107), (70, 90, st 21), (94, 100, st 21),
    (101, 101, st 107), (102, 122, st 21), (124, 124, st 21), (126, 126, st 21)],
   [(33, 33, st 21), (35, 39, st 21), (42, 43, st 21), (45, 46, st 21), (48, 57, st 21),
    (58, 58, tr39), (65, 77, st 21), (78, 78, st 108), (79, 90, st 21), (94, 109, st 21),
    (110, 110, st 108), (111, 122, st 21), (124, 124, st 21), (126, 126, st 21)],
   [(33, 33, st 21), (35, 39, st 21), (42, 43, st 21), (45, 46, st 21), (48, 57, st 21),
    (58, 58, tr39), (65, 70, st 21), (71, 71, st 109), (72, 90, st 21), (94, 102, st 21),
    (103, 103, st 109), (104, 122, st 21), (124, 124, st 21), (126, 126, st 21)],
   [(33, 33, st 21), (35, 39, st 21), (42, 43, st 21), (45, 46, st 21), (48, 57, st 21),
    (58, 58, tr39), (65, 83, st 21), (84, 84, st 110), (85, 90, st 21), (94, 115, st 21),
    (116, 116, st 110), (117, 122, st 21), (124, 124, st 21), (126, 126, st 21)],
   [(33, 33, st 21), (35, 39, st 21), (42, 43, st 21), (45, 46, st 21), (48, 57, st 21),
    (58, 58, tr39), (65, 71, st 21), (72, 72, st 111), (73, 90, st 21), (94, 103, st 21),
    (104, 104, st 111), (105, 122, st 21), (124, 124, st 21), (126, 126, st 21)],
   [(33, 33, st 21), (35, 39, st 21), (42, 43, st 21), (45, 46, st 21), (48, 57, st 21),
    (58, 58, tr148), (65, 90, st 21), (94, 122, st 21), (124, 124, st 21), (126, 126, st 21)],
   [(0, 8, tr40), (9, 9, tr149), (10, 10, tr150), (11, 12, tr149), (13, 13, tr151),
    (14, 31, tr40), (32, 32, tr149), (33, 47, tr40), (48, 57, tr152), (58, 255, tr40)],
   [(9, 9, st 114), (10, 10, tr154), (11, 12, st 114), (13, 13, st 116), (32, 32, st 114),
    (33, 33, tr35), (35, 39, tr35), (42, 43, tr35), (45, 46, tr35), (48, 57, tr156),
    (65, 66, tr35), (67, 67, tr36), (68, 83, tr35), (84, 84, tr37), (85, 90, tr35),
    (94, 98, tr35), (99, 99, tr36), (100, 115, tr35), (116, 116, tr37), (117, 122, tr35),
    (124, 124, tr35), (126, 126, tr35)],
   [(9, 13, st 114), (32, 32, st 114), (48, 57, tr157)],
   [(10, 10, tr158), (13, 13, tr159), (48, 57, st 115)],
   [(9, 9, st 114), (10, 10, tr154), (11, 13, st 114), (32, 32, st 114), (48, 57, tr157)],
   [(10, 10, tr158), (13, 13, tr159), (33, 33, st 21), (35, 39, st 21), (42, 43, st 21),
    (45, 46, st 21), (48, 57, st 117), (58, 58, tr39), (65, 90, st 21), (94, 122, st 21),
    (124, 124, st 21), (126, 126, st 21)],
   [(9, 9, st 114), (10, 10, st 113), (11, 13, st 114), (32, 32, st 114), (48, 57, tr157)],
   [(0, 9, st 23), (10, 10, tr158), (11, 12, st 23), (13, 13, tr159), (14, 47, st 23),
    (48, 57, st 119), (58, 255, st 23)],
   [],
   [(9, 13, st 63), (32, 32, st 63), (67, 67, tr104), (99, 99, tr104)],
   [(9, 13, st 37), (32, 32, st 37), (67, 67, st 38), (99, 99, st 38)],
   [(9, 13, st 114), (32, 32, st 114), (48, 57, tr157)]]

def blocks : List (List (RangeTable.Row Arc)) := [states0, states50, states100]

def state (cs : Nat) : RangeTable.Row Arc :=
  ((blocks[cs / 50]?).bind fun block => block[cs % 50]?).getD []

/-- Where the automaton goes on a byte, or `none` for the error state. -/
def next (cs : Nat) (b : UInt8) : Option Arc := RangeTable.pick b.toNat (state cs)

def httpclientParserStart : Nat := 1

def httpclientParserFirstFinal : Nat := 120

def httpclientParserError : Nat := 0

end Sylar.Http.Client
