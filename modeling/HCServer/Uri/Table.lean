import HCServer.Http.RequestTable

/-! The machine `uri_parser` of uri.rl: the states, byte ranges and actions of the generated
uri.rl.cc, whose characters are signed, so that 128 to 255 stand for the negative ones. A byte
without an edge leads to the error state 0. -/
namespace HCServer.Uris
open Lib
open Http (go act digit xdigit)

inductive Action
  | marku
  | markh
  | saveScheme
  | savePort
  | saveUserinfo
  | saveHost
  | savePath
  | saveQuery
  | saveFragment
  deriving DecidableEq, Repr

namespace ParserTable

def alpha : List (Nat × Nat) := [(65, 90), (97, 122)]

def schemeChar : List (Nat × Nat) := [(43, 43), (45, 46), (48, 57), (65, 90), (97, 122)]

def regName : List (Nat × Nat) :=
  [(33, 33), (36, 36), (38, 46), (48, 57), (59, 59), (61, 61), (65, 90), (95, 95), (97, 122),
    (126, 126)]

def userinfo : List (Nat × Nat) :=
  [(33, 33), (36, 36), (38, 46), (48, 59), (61, 61), (65, 90), (95, 95), (97, 122), (126, 126)]

def segmentNc : List (Nat × Nat) :=
  [(33, 33), (36, 36), (38, 46), (48, 57), (59, 59), (61, 61), (64, 90), (95, 95), (97, 122),
    (126, 126), (128, 255)]

def pchar : List (Nat × Nat) :=
  [(33, 33), (36, 36), (38, 46), (48, 59), (61, 61), (64, 90), (95, 95), (97, 122), (126, 126),
    (128, 255)]

def pathChar : List (Nat × Nat) :=
  [(33, 33), (36, 36), (38, 59), (61, 61), (64, 90), (95, 95), (97, 122), (126, 126), (128, 255)]

def queryChar : List (Nat × Nat) :=
  [(33, 33), (36, 36), (38, 59), (61, 61), (63, 90), (95, 95), (97, 122), (126, 126), (128, 255)]

def rows1 : Table Action := [
  (1, [go xdigit 2]),
  (2, [go xdigit 454]),
  (3, [go xdigit 4]),
  (4, [go xdigit 452]),
  (5, [go xdigit 6]),
  (6, [go xdigit 455]),
  (7, [go xdigit 8]),
  (8, [go xdigit 457]),
  (9, [go [(48, 52)] 10]),
  (10, [go digit 11]),
  (11, [go [(46, 46)] 12]),
  (12, [go [(2, 2)] 13, go [(48, 48)] 15, go [(49, 49)] 27, go [(50, 50)] 29, go [(51, 57)] 28]),
  (13, [go [(48, 52)] 14]),
  (14, [go digit 15]),
  (15, [go [(46, 46)] 16]),
  (16, [go [(2, 2)] 17, go [(48, 48)] 19, go [(49, 49)] 23, go [(50, 50)] 25, go [(51, 57)] 24]),
  (17, [go [(48, 52)] 18]),
  (18, [go digit 19]),
  (19, [go [(46, 46)] 20]),
  (20, [go [(2, 2)] 21, go [(48, 48)] 460, go [(49, 49)] 463, go [(50, 50)] 465,
    go [(51, 57)] 464]),
  (21, [go [(48, 52)] 22]),
  (22, [go digit 460]),
  (23, [go [(46, 46)] 20, go digit 24]),
  (24, [go [(46, 46)] 20, go digit 19]),
  (25, [go [(46, 46)] 20, go [(48, 52), (54, 57)] 19, go [(53, 53)] 26]),
  (26, [go [(46, 46)] 20, go [(48, 53)] 19]),
  (27, [go [(46, 46)] 16, go digit 28]),
  (28, [go [(46, 46)] 16, go digit 15]),
  (29, [go [(46, 46)] 16, go [(48, 52), (54, 57)] 15, go [(53, 53)] 30]),
  (30, [go [(46, 46)] 16, go [(48, 53)] 15]),
  (31, [go xdigit 32]),
  (32, [go xdigit 467]),
  (33, [go userinfo 33, go [(37, 37)] 34, act [(64, 64)] [.saveUserinfo] 469]),
  (34, [go xdigit 35]),
  (35, [go xdigit 33]),
  (36, [go xdigit 37]),
  (37, [go xdigit 470]),
  (38, [go xdigit 39, go [(58, 58)] 146, go [(118, 118)] 225]),
  (39, [go xdigit 40, go [(58, 58)] 43]),
  (40, [go xdigit 41, go [(58, 58)] 43]),
  (41, [go xdigit 42, go [(58, 58)] 43]),
  (42, [go [(58, 58)] 43]),
  (43, [go xdigit 44, go [(58, 58)] 141]),
  (44, [go xdigit 45, go [(58, 58)] 48]),
  (45, [go xdigit 46, go [(58, 58)] 48]),
  (46, [go xdigit 47, go [(58, 58)] 48]),
  (47, [go [(58, 58)] 48]),
  (48, [go xdigit 49, go [(58, 58)] 136]),
  (49, [go xdigit 50, go [(58, 58)] 53]),
  (50, [go xdigit 51, go [(58, 58)] 53]),
  (51, [go xdigit 52, go [(58, 58)] 53]),
  (52, [go [(58, 58)] 53]),
  (53, [go xdigit 54, go [(58, 58)] 131]),
  (54, [go xdigit 55, go [(58, 58)] 58]),
  (55, [go xdigit 56, go [(58, 58)] 58]),
  (56, [go xdigit 57, go [(58, 58)] 58]),
  (57, [go [(58, 58)] 58]),
  (58, [go xdigit 59, go [(58, 58)] 126]),
  (59, [go xdigit 60, go [(58, 58)] 63]),
  (60, [go xdigit 61, go [(58, 58)] 63]),
  (61, [go xdigit 62, go [(58, 58)] 63]),
  (62, [go [(58, 58)] 63]),
  (63, [go xdigit 64, go [(58, 58)] 113]),
  (64, [go xdigit 65, go [(58, 58)] 68]),
  (65, [go xdigit 66, go [(58, 58)] 68]),
  (66, [go xdigit 67, go [(58, 58)] 68]),
  (67, [go [(58, 58)] 68]),
  (68, [go [(2, 2)] 69, go [(48, 48)] 96, go [(49, 49)] 104, go [(50, 50)] 107,
    go [(51, 57)] 110, go [(58, 58)] 111, go [(65, 70), (97, 102)] 112]),
  (69, [go [(48, 52)] 70]),
  (70, [go digit 71]),
  (71, [go [(46, 46)] 72]),
  (72, [go [(2, 2)] 73, go [(48, 48)] 75, go [(49, 49)] 92, go [(50, 50)] 94, go [(51, 57)] 93]),
  (73, [go [(48, 52)] 74]),
  (74, [go digit 75]),
  (75, [go [(46, 46)] 76]),
  (76, [go [(2, 2)] 77, go [(48, 48)] 79, go [(49, 49)] 88, go [(50, 50)] 90, go [(51, 57)] 89]),
  (77, [go [(48, 52)] 78]),
  (78, [go digit 79]),
  (79, [go [(46, 46)] 80]),
  (80, [go [(2, 2)] 81, go [(48, 48)] 83, go [(49, 49)] 84, go [(50, 50)] 86, go [(51, 57)] 85])]

def rows2 : Table Action := [
  (81, [go [(48, 52)] 82]),
  (82, [go digit 83]),
  (83, [go [(93, 93)] 460]),
  (84, [go digit 85, go [(93, 93)] 460]),
  (85, [go digit 83, go [(93, 93)] 460]),
  (86, [go [(48, 52), (54, 57)] 83, go [(53, 53)] 87, go [(93, 93)] 460]),
  (87, [go [(48, 53)] 83, go [(93, 93)] 460]),
  (88, [go [(46, 46)] 80, go digit 89]),
  (89, [go [(46, 46)] 80, go digit 79]),
  (90, [go [(46, 46)] 80, go [(48, 52), (54, 57)] 79, go [(53, 53)] 91]),
  (91, [go [(46, 46)] 80, go [(48, 53)] 79]),
  (92, [go [(46, 46)] 76, go digit 93]),
  (93, [go [(46, 46)] 76, go digit 75]),
  (94, [go [(46, 46)] 76, go [(48, 52), (54, 57)] 75, go [(53, 53)] 95]),
  (95, [go [(46, 46)] 76, go [(48, 53)] 75]),
  (96, [go [(46, 46)] 72, go xdigit 97, go [(58, 58)] 100]),
  (97, [go xdigit 98, go [(58, 58)] 100]),
  (98, [go xdigit 99, go [(58, 58)] 100]),
  (99, [go [(58, 58)] 100]),
  (100, [go xdigit 101, go [(58, 58)] 83]),
  (101, [go xdigit 102, go [(93, 93)] 460]),
  (102, [go xdigit 103, go [(93, 93)] 460]),
  (103, [go xdigit 83, go [(93, 93)] 460]),
  (104, [go [(46, 46)] 72, go digit 105, go [(58, 58)] 100, go [(65, 70), (97, 102)] 97]),
  (105, [go [(46, 46)] 72, go digit 106, go [(58, 58)] 100, go [(65, 70), (97, 102)] 98]),
  (106, [go [(46, 46)] 72, go xdigit 99, go [(58, 58)] 100]),
  (107, [go [(46, 46)] 72, go [(48, 52), (54, 57)] 108, go [(53, 53)] 109, go [(58, 58)] 100,
    go [(65, 70), (97, 102)] 97]),
  (108, [go [(46, 46)] 72, go xdigit 98, go [(58, 58)] 100]),
  (109, [go [(46, 46)] 72, go [(48, 53)] 106, go [(58, 58)] 100, go xdigit 98]),
  (110, [go [(46, 46)] 72, go digit 108, go [(58, 58)] 100, go [(65, 70), (97, 102)] 97]),
  (111, [go xdigit 101]),
  (112, [go xdigit 97, go [(58, 58)] 100]),
  (113, [go [(2, 2)] 69, go [(48, 48)] 114, go [(49, 49)] 118, go [(50, 50)] 121,
    go [(51, 57)] 124, go [(65, 70), (97, 102)] 125]),
  (114, [go [(46, 46)] 72, go xdigit 115, go [(58, 58)] 111]),
  (115, [go xdigit 116, go [(58, 58)] 111]),
  (116, [go xdigit 117, go [(58, 58)] 111]),
  (117, [go [(58, 58)] 111]),
  (118, [go [(46, 46)] 72, go digit 119, go [(58, 58)] 111, go [(65, 70), (97, 102)] 115]),
  (119, [go [(46, 46)] 72, go digit 120, go [(58, 58)] 111, go [(65, 70), (97, 102)] 116]),
  (120, [go [(46, 46)] 72, go xdigit 117, go [(58, 58)] 111]),
  (121, [go [(46, 46)] 72, go [(48, 52), (54, 57)] 122, go [(53, 53)] 123, go [(58, 58)] 111,
    go [(65, 70), (97, 102)] 115]),
  (122, [go [(46, 46)] 72, go xdigit 116, go [(58, 58)] 111]),
  (123, [go [(46, 46)] 72, go [(48, 53)] 120, go [(58, 58)] 111, go xdigit 116]),
  (124, [go [(46, 46)] 72, go digit 122, go [(58, 58)] 111, go [(65, 70), (97, 102)] 115]),
  (125, [go xdigit 115, go [(58, 58)] 111]),
  (126, [go xdigit 127]),
  (127, [go xdigit 128, go [(58, 58)] 113]),
  (128, [go xdigit 129, go [(58, 58)] 113]),
  (129, [go xdigit 130, go [(58, 58)] 113]),
  (130, [go [(58, 58)] 113]),
  (131, [go xdigit 132]),
  (132, [go xdigit 133, go [(58, 58)] 126]),
  (133, [go xdigit 134, go [(58, 58)] 126]),
  (134, [go xdigit 135, go [(58, 58)] 126]),
  (135, [go [(58, 58)] 126]),
  (136, [go xdigit 137]),
  (137, [go xdigit 138, go [(58, 58)] 131]),
  (138, [go xdigit 139, go [(58, 58)] 131]),
  (139, [go xdigit 140, go [(58, 58)] 131]),
  (140, [go [(58, 58)] 131]),
  (141, [go xdigit 142]),
  (142, [go xdigit 143, go [(58, 58)] 136]),
  (143, [go xdigit 144, go [(58, 58)] 136]),
  (144, [go xdigit 145, go [(58, 58)] 136]),
  (145, [go [(58, 58)] 136]),
  (146, [go [(58, 58)] 147]),
  (147, [go [(2, 2)] 69, go [(48, 48)] 148, go [(49, 49)] 217, go [(50, 50)] 220,
    go [(51, 57)] 223, go [(65, 70), (97, 102)] 224, go [(93, 93)] 460]),
  (148, [go [(46, 46)] 72, go xdigit 149, go [(58, 58)] 152, go [(93, 93)] 460]),
  (149, [go xdigit 150, go [(58, 58)] 152, go [(93, 93)] 460]),
  (150, [go xdigit 151, go [(58, 58)] 152, go [(93, 93)] 460]),
  (151, [go [(58, 58)] 152, go [(93, 93)] 460]),
  (152, [go [(2, 2)] 69, go [(48, 48)] 153, go [(49, 49)] 209, go [(50, 50)] 212,
    go [(51, 57)] 215, go [(65, 70), (97, 102)] 216]),
  (153, [go [(46, 46)] 72, go xdigit 154, go [(58, 58)] 157, go [(93, 93)] 460]),
  (154, [go xdigit 155, go [(58, 58)] 157, go [(93, 93)] 460]),
  (155, [go xdigit 156, go [(58, 58)] 157, go [(93, 93)] 460]),
  (156, [go [(58, 58)] 157, go [(93, 93)] 460]),
  (157, [go [(2, 2)] 69, go [(48, 48)] 158, go [(49, 49)] 201, go [(50, 50)] 204,
    go [(51, 57)] 207, go [(65, 70), (97, 102)] 208]),
  (158, [go [(46, 46)] 72, go xdigit 159, go [(58, 58)] 162, go [(93, 93)] 460]),
  (159, [go xdigit 160, go [(58, 58)] 162, go [(93, 93)] 460]),
  (160, [go xdigit 161, go [(58, 58)] 162, go [(93, 93)] 460])]

def rows3 : Table Action := [
  (161, [go [(58, 58)] 162, go [(93, 93)] 460]),
  (162, [go [(2, 2)] 69, go [(48, 48)] 163, go [(49, 49)] 193, go [(50, 50)] 196,
    go [(51, 57)] 199, go [(65, 70), (97, 102)] 200]),
  (163, [go [(46, 46)] 72, go xdigit 164, go [(58, 58)] 167, go [(93, 93)] 460]),
  (164, [go xdigit 165, go [(58, 58)] 167, go [(93, 93)] 460]),
  (165, [go xdigit 166, go [(58, 58)] 167, go [(93, 93)] 460]),
  (166, [go [(58, 58)] 167, go [(93, 93)] 460]),
  (167, [go [(2, 2)] 69, go [(48, 48)] 168, go [(49, 49)] 185, go [(50, 50)] 188,
    go [(51, 57)] 191, go [(65, 70), (97, 102)] 192]),
  (168, [go [(46, 46)] 72, go xdigit 169, go [(58, 58)] 172, go [(93, 93)] 460]),
  (169, [go xdigit 170, go [(58, 58)] 172, go [(93, 93)] 460]),
  (170, [go xdigit 171, go [(58, 58)] 172, go [(93, 93)] 460]),
  (171, [go [(58, 58)] 172, go [(93, 93)] 460]),
  (172, [go [(2, 2)] 69, go [(48, 48)] 173, go [(49, 49)] 177, go [(50, 50)] 180,
    go [(51, 57)] 183, go [(65, 70), (97, 102)] 184]),
  (173, [go [(46, 46)] 72, go xdigit 174, go [(58, 58)] 111, go [(93, 93)] 460]),
  (174, [go xdigit 175, go [(58, 58)] 111, go [(93, 93)] 460]),
  (175, [go xdigit 176, go [(58, 58)] 111, go [(93, 93)] 460]),
  (176, [go [(58, 58)] 111, go [(93, 93)] 460]),
  (177, [go [(46, 46)] 72, go digit 178, go [(58, 58)] 111, go [(65, 70), (97, 102)] 174,
    go [(93, 93)] 460]),
  (178, [go [(46, 46)] 72, go digit 179, go [(58, 58)] 111, go [(65, 70), (97, 102)] 175,
    go [(93, 93)] 460]),
  (179, [go [(46, 46)] 72, go xdigit 176, go [(58, 58)] 111, go [(93, 93)] 460]),
  (180, [go [(46, 46)] 72, go [(48, 52), (54, 57)] 181, go [(53, 53)] 182, go [(58, 58)] 111,
    go [(65, 70), (97, 102)] 174, go [(93, 93)] 460]),
  (181, [go [(46, 46)] 72, go xdigit 175, go [(58, 58)] 111, go [(93, 93)] 460]),
  (182, [go [(46, 46)] 72, go [(48, 53)] 179, go [(58, 58)] 111, go [(93, 93)] 460, go xdigit 175]),
  (183, [go [(46, 46)] 72, go digit 181, go [(58, 58)] 111, go [(65, 70), (97, 102)] 174,
    go [(93, 93)] 460]),
  (184, [go xdigit 174, go [(58, 58)] 111, go [(93, 93)] 460]),
  (185, [go [(46, 46)] 72, go digit 186, go [(58, 58)] 172, go [(65, 70), (97, 102)] 169,
    go [(93, 93)] 460]),
  (186, [go [(46, 46)] 72, go digit 187, go [(58, 58)] 172, go [(65, 70), (97, 102)] 170,
    go [(93, 93)] 460]),
  (187, [go [(46, 46)] 72, go xdigit 171, go [(58, 58)] 172, go [(93, 93)] 460]),
  (188, [go [(46, 46)] 72, go [(48, 52), (54, 57)] 189, go [(53, 53)] 190, go [(58, 58)] 172,
    go [(65, 70), (97, 102)] 169, go [(93, 93)] 460]),
  (189, [go [(46, 46)] 72, go xdigit 170, go [(58, 58)] 172, go [(93, 93)] 460]),
  (190, [go [(46, 46)] 72, go [(48, 53)] 187, go [(58, 58)] 172, go [(93, 93)] 460, go xdigit 170]),
  (191, [go [(46, 46)] 72, go digit 189, go [(58, 58)] 172, go [(65, 70), (97, 102)] 169,
    go [(93, 93)] 460]),
  (192, [go xdigit 169, go [(58, 58)] 172, go [(93, 93)] 460]),
  (193, [go [(46, 46)] 72, go digit 194, go [(58, 58)] 167, go [(65, 70), (97, 102)] 164,
    go [(93, 93)] 460]),
  (194, [go [(46, 46)] 72, go digit 195, go [(58, 58)] 167, go [(65, 70), (97, 102)] 165,
    go [(93, 93)] 460]),
  (195, [go [(46, 46)] 72, go xdigit 166, go [(58, 58)] 167, go [(93, 93)] 460]),
  (196, [go [(46, 46)] 72, go [(48, 52), (54, 57)] 197, go [(53, 53)] 198, go [(58, 58)] 167,
    go [(65, 70), (97, 102)] 164, go [(93, 93)] 460]),
  (197, [go [(46, 46)] 72, go xdigit 165, go [(58, 58)] 167, go [(93, 93)] 460]),
  (198, [go [(46, 46)] 72, go [(48, 53)] 195, go [(58, 58)] 167, go [(93, 93)] 460, go xdigit 165]),
  (199, [go [(46, 46)] 72, go digit 197, go [(58, 58)] 167, go [(65, 70), (97, 102)] 164,
    go [(93, 93)] 460]),
  (200, [go xdigit 164, go [(58, 58)] 167, go [(93, 93)] 460]),
  (201, [go [(46, 46)] 72, go digit 202, go [(58, 58)] 162, go [(65, 70), (97, 102)] 159,
    go [(93, 93)] 460]),
  (202, [go [(46, 46)] 72, go digit 203, go [(58, 58)] 162, go [(65, 70), (97, 102)] 160,
    go [(93, 93)] 460]),
  (203, [go [(46, 46)] 72, go xdigit 161, go [(58, 58)] 162, go [(93, 93)] 460]),
  (204, [go [(46, 46)] 72, go [(48, 52), (54, 57)] 205, go [(53, 53)] 206, go [(58, 58)] 162,
    go [(65, 70), (97, 102)] 159, go [(93, 93)] 460]),
  (205, [go [(46, 46)] 72, go xdigit 160, go [(58, 58)] 162, go [(93, 93)] 460]),
  (206, [go [(46, 46)] 72, go [(48, 53)] 203, go [(58, 58)] 162, go [(93, 93)] 460, go xdigit 160]),
  (207, [go [(46, 46)] 72, go digit 205, go [(58, 58)] 162, go [(65, 70), (97, 102)] 159,
    go [(93, 93)] 460]),
  (208, [go xdigit 159, go [(58, 58)] 162, go [(93, 93)] 460]),
  (209, [go [(46, 46)] 72, go digit 210, go [(58, 58)] 157, go [(65, 70), (97, 102)] 154,
    go [(93, 93)] 460]),
  (210, [go [(46, 46)] 72, go digit 211, go [(58, 58)] 157, go [(65, 70), (97, 102)] 155,
    go [(93, 93)] 460]),
  (211, [go [(46, 46)] 72, go xdigit 156, go [(58, 58)] 157, go [(93, 93)] 460]),
  (212, [go [(46, 46)] 72, go [(48, 52), (54, 57)] 213, go [(53, 53)] 214, go [(58, 58)] 157,
    go [(65, 70), (97, 102)] 154, go [(93, 93)] 460]),
  (213, [go [(46, 46)] 72, go xdigit 155, go [(58, 58)] 157, go [(93, 93)] 460]),
  (214, [go [(46, 46)] 72, go [(48, 53)] 211, go [(58, 58)] 157, go [(93, 93)] 460, go xdigit 155]),
  (215, [go [(46, 46)] 72, go digit 213, go [(58, 58)] 157, go [(65, 70), (97, 102)] 154,
    go [(93, 93)] 460]),
  (216, [go xdigit 154, go [(58, 58)] 157, go [(93, 93)] 460]),
  (217, [go [(46, 46)] 72, go digit 218, go [(58, 58)] 152, go [(65, 70), (97, 102)] 149,
    go [(93, 93)] 460]),
  (218, [go [(46, 46)] 72, go digit 219, go [(58, 58)] 152, go [(65, 70), (97, 102)] 150,
    go [(93, 93)] 460]),
  (219, [go [(46, 46)] 72, go xdigit 151, go [(58, 58)] 152, go [(93, 93)] 460]),
  (220, [go [(46, 46)] 72, go [(48, 52), (54, 57)] 221, go [(53, 53)] 222, go [(58, 58)] 152,
    go [(65, 70), (97, 102)] 149, go [(93, 93)] 460]),
  (221, [go [(46, 46)] 72, go xdigit 150, go [(58, 58)] 152, go [(93, 93)] 460]),
  (222, [go [(46, 46)] 72, go [(48, 53)] 219, go [(58, 58)] 152, go [(93, 93)] 460, go xdigit 150]),
  (223, [go [(46, 46)] 72, go digit 221, go [(58, 58)] 152, go [(65, 70), (97, 102)] 149,
    go [(93, 93)] 460]),
  (224, [go xdigit 149, go [(58, 58)] 152, go [(93, 93)] 460]),
  (225, [go xdigit 226]),
  (226, [go [(46, 46)] 227, go xdigit 226]),
  (227, [go userinfo 228]),
  (228, [go userinfo 228, go [(93, 93)] 460]),
  (229, [go [(48, 52)] 230]),
  (230, [go digit 231]),
  (231, [go [(46, 46)] 232]),
  (232, [go [(2, 2)] 233, go [(48, 48)] 235, go [(49, 49)] 249, go [(50, 50)] 251,
    go [(51, 57)] 250]),
  (233, [go [(48, 52)] 234]),
  (234, [go digit 235]),
  (235, [go [(46, 46)] 236]),
  (236, [go [(2, 2)] 237, go [(48, 48)] 239, go [(49, 49)] 245, go [(50, 50)] 247,
    go [(51, 57)] 246]),
  (237, [go [(48, 52)] 238]),
  (238, [go digit 239]),
  (239, [go [(46, 46)] 240]),
  (240, [go [(2, 2)] 241, go [(48, 48)] 512, go [(49, 49)] 516, go [(50, 50)] 518,
    go [(51, 57)] 517])]

def rows4 : Table Action := [
  (241, [go [(48, 52)] 242]),
  (242, [go digit 512]),
  (243, [go xdigit 244]),
  (244, [go xdigit 513]),
  (245, [go [(46, 46)] 240, go digit 246]),
  (246, [go [(46, 46)] 240, go digit 239]),
  (247, [go [(46, 46)] 240, go [(48, 52), (54, 57)] 239, go [(53, 53)] 248]),
  (248, [go [(46, 46)] 240, go [(48, 53)] 239]),
  (249, [go [(46, 46)] 236, go digit 250]),
  (250, [go [(46, 46)] 236, go digit 235]),
  (251, [go [(46, 46)] 236, go [(48, 52), (54, 57)] 235, go [(53, 53)] 252]),
  (252, [go [(46, 46)] 236, go [(48, 53)] 235]),
  (253, [go xdigit 254]),
  (254, [go xdigit 520]),
  (255, [go userinfo 255, go [(37, 37)] 256, act [(64, 64)] [.saveUserinfo] 522]),
  (256, [go xdigit 257]),
  (257, [go xdigit 255]),
  (258, [go xdigit 259]),
  (259, [go xdigit 523]),
  (260, [go xdigit 261, go [(58, 58)] 368, go [(118, 118)] 447]),
  (261, [go xdigit 262, go [(58, 58)] 265]),
  (262, [go xdigit 263, go [(58, 58)] 265]),
  (263, [go xdigit 264, go [(58, 58)] 265]),
  (264, [go [(58, 58)] 265]),
  (265, [go xdigit 266, go [(58, 58)] 363]),
  (266, [go xdigit 267, go [(58, 58)] 270]),
  (267, [go xdigit 268, go [(58, 58)] 270]),
  (268, [go xdigit 269, go [(58, 58)] 270]),
  (269, [go [(58, 58)] 270]),
  (270, [go xdigit 271, go [(58, 58)] 358]),
  (271, [go xdigit 272, go [(58, 58)] 275]),
  (272, [go xdigit 273, go [(58, 58)] 275]),
  (273, [go xdigit 274, go [(58, 58)] 275]),
  (274, [go [(58, 58)] 275]),
  (275, [go xdigit 276, go [(58, 58)] 353]),
  (276, [go xdigit 277, go [(58, 58)] 280]),
  (277, [go xdigit 278, go [(58, 58)] 280]),
  (278, [go xdigit 279, go [(58, 58)] 280]),
  (279, [go [(58, 58)] 280]),
  (280, [go xdigit 281, go [(58, 58)] 348]),
  (281, [go xdigit 282, go [(58, 58)] 285]),
  (282, [go xdigit 283, go [(58, 58)] 285]),
  (283, [go xdigit 284, go [(58, 58)] 285]),
  (284, [go [(58, 58)] 285]),
  (285, [go xdigit 286, go [(58, 58)] 335]),
  (286, [go xdigit 287, go [(58, 58)] 290]),
  (287, [go xdigit 288, go [(58, 58)] 290]),
  (288, [go xdigit 289, go [(58, 58)] 290]),
  (289, [go [(58, 58)] 290]),
  (290, [go [(2, 2)] 291, go [(48, 48)] 318, go [(49, 49)] 326, go [(50, 50)] 329,
    go [(51, 57)] 332, go [(58, 58)] 333, go [(65, 70), (97, 102)] 334]),
  (291, [go [(48, 52)] 292]),
  (292, [go digit 293]),
  (293, [go [(46, 46)] 294]),
  (294, [go [(2, 2)] 295, go [(48, 48)] 297, go [(49, 49)] 314, go [(50, 50)] 316,
    go [(51, 57)] 315]),
  (295, [go [(48, 52)] 296]),
  (296, [go digit 297]),
  (297, [go [(46, 46)] 298]),
  (298, [go [(2, 2)] 299, go [(48, 48)] 301, go [(49, 49)] 310, go [(50, 50)] 312,
    go [(51, 57)] 311]),
  (299, [go [(48, 52)] 300]),
  (300, [go digit 301]),
  (301, [go [(46, 46)] 302]),
  (302, [go [(2, 2)] 303, go [(48, 48)] 305, go [(49, 49)] 306, go [(50, 50)] 308,
    go [(51, 57)] 307]),
  (303, [go [(48, 52)] 304]),
  (304, [go digit 305]),
  (305, [go [(93, 93)] 512]),
  (306, [go digit 307, go [(93, 93)] 512]),
  (307, [go digit 305, go [(93, 93)] 512]),
  (308, [go [(48, 52), (54, 57)] 305, go [(53, 53)] 309, go [(93, 93)] 512]),
  (309, [go [(48, 53)] 305, go [(93, 93)] 512]),
  (310, [go [(46, 46)] 302, go digit 311]),
  (311, [go [(46, 46)] 302, go digit 301]),
  (312, [go [(46, 46)] 302, go [(48, 52), (54, 57)] 301, go [(53, 53)] 313]),
  (313, [go [(46, 46)] 302, go [(48, 53)] 301]),
  (314, [go [(46, 46)] 298, go digit 315]),
  (315, [go [(46, 46)] 298, go digit 297]),
  (316, [go [(46, 46)] 298, go [(48, 52), (54, 57)] 297, go [(53, 53)] 317]),
  (317, [go [(46, 46)] 298, go [(48, 53)] 297]),
  (318, [go [(46, 46)] 294, go xdigit 319, go [(58, 58)] 322]),
  (319, [go xdigit 320, go [(58, 58)] 322]),
  (320, [go xdigit 321, go [(58, 58)] 322])]

def rows5 : Table Action := [
  (321, [go [(58, 58)] 322]),
  (322, [go xdigit 323, go [(58, 58)] 305]),
  (323, [go xdigit 324, go [(93, 93)] 512]),
  (324, [go xdigit 325, go [(93, 93)] 512]),
  (325, [go xdigit 305, go [(93, 93)] 512]),
  (326, [go [(46, 46)] 294, go digit 327, go [(58, 58)] 322, go [(65, 70), (97, 102)] 319]),
  (327, [go [(46, 46)] 294, go digit 328, go [(58, 58)] 322, go [(65, 70), (97, 102)] 320]),
  (328, [go [(46, 46)] 294, go xdigit 321, go [(58, 58)] 322]),
  (329, [go [(46, 46)] 294, go [(48, 52), (54, 57)] 330, go [(53, 53)] 331, go [(58, 58)] 322,
    go [(65, 70), (97, 102)] 319]),
  (330, [go [(46, 46)] 294, go xdigit 320, go [(58, 58)] 322]),
  (331, [go [(46, 46)] 294, go [(48, 53)] 328, go [(58, 58)] 322, go xdigit 320]),
  (332, [go [(46, 46)] 294, go digit 330, go [(58, 58)] 322, go [(65, 70), (97, 102)] 319]),
  (333, [go xdigit 323]),
  (334, [go xdigit 319, go [(58, 58)] 322]),
  (335, [go [(2, 2)] 291, go [(48, 48)] 336, go [(49, 49)] 340, go [(50, 50)] 343,
    go [(51, 57)] 346, go [(65, 70), (97, 102)] 347]),
  (336, [go [(46, 46)] 294, go xdigit 337, go [(58, 58)] 333]),
  (337, [go xdigit 338, go [(58, 58)] 333]),
  (338, [go xdigit 339, go [(58, 58)] 333]),
  (339, [go [(58, 58)] 333]),
  (340, [go [(46, 46)] 294, go digit 341, go [(58, 58)] 333, go [(65, 70), (97, 102)] 337]),
  (341, [go [(46, 46)] 294, go digit 342, go [(58, 58)] 333, go [(65, 70), (97, 102)] 338]),
  (342, [go [(46, 46)] 294, go xdigit 339, go [(58, 58)] 333]),
  (343, [go [(46, 46)] 294, go [(48, 52), (54, 57)] 344, go [(53, 53)] 345, go [(58, 58)] 333,
    go [(65, 70), (97, 102)] 337]),
  (344, [go [(46, 46)] 294, go xdigit 338, go [(58, 58)] 333]),
  (345, [go [(46, 46)] 294, go [(48, 53)] 342, go [(58, 58)] 333, go xdigit 338]),
  (346, [go [(46, 46)] 294, go digit 344, go [(58, 58)] 333, go [(65, 70), (97, 102)] 337]),
  (347, [go xdigit 337, go [(58, 58)] 333]),
  (348, [go xdigit 349]),
  (349, [go xdigit 350, go [(58, 58)] 335]),
  (350, [go xdigit 351, go [(58, 58)] 335]),
  (351, [go xdigit 352, go [(58, 58)] 335]),
  (352, [go [(58, 58)] 335]),
  (353, [go xdigit 354]),
  (354, [go xdigit 355, go [(58, 58)] 348]),
  (355, [go xdigit 356, go [(58, 58)] 348]),
  (356, [go xdigit 357, go [(58, 58)] 348]),
  (357, [go [(58, 58)] 348]),
  (358, [go xdigit 359]),
  (359, [go xdigit 360, go [(58, 58)] 353]),
  (360, [go xdigit 361, go [(58, 58)] 353]),
  (361, [go xdigit 362, go [(58, 58)] 353]),
  (362, [go [(58, 58)] 353]),
  (363, [go xdigit 364]),
  (364, [go xdigit 365, go [(58, 58)] 358]),
  (365, [go xdigit 366, go [(58, 58)] 358]),
  (366, [go xdigit 367, go [(58, 58)] 358]),
  (367, [go [(58, 58)] 358]),
  (368, [go [(58, 58)] 369]),
  (369, [go [(2, 2)] 291, go [(48, 48)] 370, go [(49, 49)] 439, go [(50, 50)] 442,
    go [(51, 57)] 445, go [(65, 70), (97, 102)] 446, go [(93, 93)] 512]),
  (370, [go [(46, 46)] 294, go xdigit 371, go [(58, 58)] 374, go [(93, 93)] 512]),
  (371, [go xdigit 372, go [(58, 58)] 374, go [(93, 93)] 512]),
  (372, [go xdigit 373, go [(58, 58)] 374, go [(93, 93)] 512]),
  (373, [go [(58, 58)] 374, go [(93, 93)] 512]),
  (374, [go [(2, 2)] 291, go [(48, 48)] 375, go [(49, 49)] 431, go [(50, 50)] 434,
    go [(51, 57)] 437, go [(65, 70), (97, 102)] 438]),
  (375, [go [(46, 46)] 294, go xdigit 376, go [(58, 58)] 379, go [(93, 93)] 512]),
  (376, [go xdigit 377, go [(58, 58)] 379, go [(93, 93)] 512]),
  (377, [go xdigit 378, go [(58, 58)] 379, go [(93, 93)] 512]),
  (378, [go [(58, 58)] 379, go [(93, 93)] 512]),
  (379, [go [(2, 2)] 291, go [(48, 48)] 380, go [(49, 49)] 423, go [(50, 50)] 426,
    go [(51, 57)] 429, go [(65, 70), (97, 102)] 430]),
  (380, [go [(46, 46)] 294, go xdigit 381, go [(58, 58)] 384, go [(93, 93)] 512]),
  (381, [go xdigit 382, go [(58, 58)] 384, go [(93, 93)] 512]),
  (382, [go xdigit 383, go [(58, 58)] 384, go [(93, 93)] 512]),
  (383, [go [(58, 58)] 384, go [(93, 93)] 512]),
  (384, [go [(2, 2)] 291, go [(48, 48)] 385, go [(49, 49)] 415, go [(50, 50)] 418,
    go [(51, 57)] 421, go [(65, 70), (97, 102)] 422]),
  (385, [go [(46, 46)] 294, go xdigit 386, go [(58, 58)] 389, go [(93, 93)] 512]),
  (386, [go xdigit 387, go [(58, 58)] 389, go [(93, 93)] 512]),
  (387, [go xdigit 388, go [(58, 58)] 389, go [(93, 93)] 512]),
  (388, [go [(58, 58)] 389, go [(93, 93)] 512]),
  (389, [go [(2, 2)] 291, go [(48, 48)] 390, go [(49, 49)] 407, go [(50, 50)] 410,
    go [(51, 57)] 413, go [(65, 70), (97, 102)] 414]),
  (390, [go [(46, 46)] 294, go xdigit 391, go [(58, 58)] 394, go [(93, 93)] 512]),
  (391, [go xdigit 392, go [(58, 58)] 394, go [(93, 93)] 512]),
  (392, [go xdigit 393, go [(58, 58)] 394, go [(93, 93)] 512]),
  (393, [go [(58, 58)] 394, go [(93, 93)] 512]),
  (394, [go [(2, 2)] 291, go [(48, 48)] 395, go [(49, 49)] 399, go [(50, 50)] 402,
    go [(51, 57)] 405, go [(65, 70), (97, 102)] 406]),
  (395, [go [(46, 46)] 294, go xdigit 396, go [(58, 58)] 333, go [(93, 93)] 512]),
  (396, [go xdigit 397, go [(58, 58)] 333, go [(93, 93)] 512]),
  (397, [go xdigit 398, go [(58, 58)] 333, go [(93, 93)] 512]),
  (398, [go [(58, 58)] 333, go [(93, 93)] 512]),
  (399, [go [(46, 46)] 294, go digit 400, go [(58, 58)] 333, go [(65, 70), (97, 102)] 396,
    go [(93, 93)] 512]),
  (400, [go [(46, 46)] 294, go digit 401, go [(58, 58)] 333, go [(65, 70), (97, 102)] 397,
    go [(93, 93)] 512])]

def rows6 : Table Action := [
  (401, [go [(46, 46)] 294, go xdigit 398, go [(58, 58)] 333, go [(93, 93)] 512]),
  (402, [go [(46, 46)] 294, go [(48, 52), (54, 57)] 403, go [(53, 53)] 404, go [(58, 58)] 333,
    go [(65, 70), (97, 102)] 396, go [(93, 93)] 512]),
  (403, [go [(46, 46)] 294, go xdigit 397, go [(58, 58)] 333, go [(93, 93)] 512]),
  (404, [go [(46, 46)] 294, go [(48, 53)] 401, go [(58, 58)] 333, go [(93, 93)] 512,
    go xdigit 397]),
  (405, [go [(46, 46)] 294, go digit 403, go [(58, 58)] 333, go [(65, 70), (97, 102)] 396,
    go [(93, 93)] 512]),
  (406, [go xdigit 396, go [(58, 58)] 333, go [(93, 93)] 512]),
  (407, [go [(46, 46)] 294, go digit 408, go [(58, 58)] 394, go [(65, 70), (97, 102)] 391,
    go [(93, 93)] 512]),
  (408, [go [(46, 46)] 294, go digit 409, go [(58, 58)] 394, go [(65, 70), (97, 102)] 392,
    go [(93, 93)] 512]),
  (409, [go [(46, 46)] 294, go xdigit 393, go [(58, 58)] 394, go [(93, 93)] 512]),
  (410, [go [(46, 46)] 294, go [(48, 52), (54, 57)] 411, go [(53, 53)] 412, go [(58, 58)] 394,
    go [(65, 70), (97, 102)] 391, go [(93, 93)] 512]),
  (411, [go [(46, 46)] 294, go xdigit 392, go [(58, 58)] 394, go [(93, 93)] 512]),
  (412, [go [(46, 46)] 294, go [(48, 53)] 409, go [(58, 58)] 394, go [(93, 93)] 512,
    go xdigit 392]),
  (413, [go [(46, 46)] 294, go digit 411, go [(58, 58)] 394, go [(65, 70), (97, 102)] 391,
    go [(93, 93)] 512]),
  (414, [go xdigit 391, go [(58, 58)] 394, go [(93, 93)] 512]),
  (415, [go [(46, 46)] 294, go digit 416, go [(58, 58)] 389, go [(65, 70), (97, 102)] 386,
    go [(93, 93)] 512]),
  (416, [go [(46, 46)] 294, go digit 417, go [(58, 58)] 389, go [(65, 70), (97, 102)] 387,
    go [(93, 93)] 512]),
  (417, [go [(46, 46)] 294, go xdigit 388, go [(58, 58)] 389, go [(93, 93)] 512]),
  (418, [go [(46, 46)] 294, go [(48, 52), (54, 57)] 419, go [(53, 53)] 420, go [(58, 58)] 389,
    go [(65, 70), (97, 102)] 386, go [(93, 93)] 512]),
  (419, [go [(46, 46)] 294, go xdigit 387, go [(58, 58)] 389, go [(93, 93)] 512]),
  (420, [go [(46, 46)] 294, go [(48, 53)] 417, go [(58, 58)] 389, go [(93, 93)] 512,
    go xdigit 387]),
  (421, [go [(46, 46)] 294, go digit 419, go [(58, 58)] 389, go [(65, 70), (97, 102)] 386,
    go [(93, 93)] 512]),
  (422, [go xdigit 386, go [(58, 58)] 389, go [(93, 93)] 512]),
  (423, [go [(46, 46)] 294, go digit 424, go [(58, 58)] 384, go [(65, 70), (97, 102)] 381,
    go [(93, 93)] 512]),
  (424, [go [(46, 46)] 294, go digit 425, go [(58, 58)] 384, go [(65, 70), (97, 102)] 382,
    go [(93, 93)] 512]),
  (425, [go [(46, 46)] 294, go xdigit 383, go [(58, 58)] 384, go [(93, 93)] 512]),
  (426, [go [(46, 46)] 294, go [(48, 52), (54, 57)] 427, go [(53, 53)] 428, go [(58, 58)] 384,
    go [(65, 70), (97, 102)] 381, go [(93, 93)] 512]),
  (427, [go [(46, 46)] 294, go xdigit 382, go [(58, 58)] 384, go [(93, 93)] 512]),
  (428, [go [(46, 46)] 294, go [(48, 53)] 425, go [(58, 58)] 384, go [(93, 93)] 512,
    go xdigit 382]),
  (429, [go [(46, 46)] 294, go digit 427, go [(58, 58)] 384, go [(65, 70), (97, 102)] 381,
    go [(93, 93)] 512]),
  (430, [go xdigit 381, go [(58, 58)] 384, go [(93, 93)] 512]),
  (431, [go [(46, 46)] 294, go digit 432, go [(58, 58)] 379, go [(65, 70), (97, 102)] 376,
    go [(93, 93)] 512]),
  (432, [go [(46, 46)] 294, go digit 433, go [(58, 58)] 379, go [(65, 70), (97, 102)] 377,
    go [(93, 93)] 512]),
  (433, [go [(46, 46)] 294, go xdigit 378, go [(58, 58)] 379, go [(93, 93)] 512]),
  (434, [go [(46, 46)] 294, go [(48, 52), (54, 57)] 435, go [(53, 53)] 436, go [(58, 58)] 379,
    go [(65, 70), (97, 102)] 376, go [(93, 93)] 512]),
  (435, [go [(46, 46)] 294, go xdigit 377, go [(58, 58)] 379, go [(93, 93)] 512]),
  (436, [go [(46, 46)] 294, go [(48, 53)] 433, go [(58, 58)] 379, go [(93, 93)] 512,
    go xdigit 377]),
  (437, [go [(46, 46)] 294, go digit 435, go [(58, 58)] 379, go [(65, 70), (97, 102)] 376,
    go [(93, 93)] 512]),
  (438, [go xdigit 376, go [(58, 58)] 379, go [(93, 93)] 512]),
  (439, [go [(46, 46)] 294, go digit 440, go [(58, 58)] 374, go [(65, 70), (97, 102)] 371,
    go [(93, 93)] 512]),
  (440, [go [(46, 46)] 294, go digit 441, go [(58, 58)] 374, go [(65, 70), (97, 102)] 372,
    go [(93, 93)] 512]),
  (441, [go [(46, 46)] 294, go xdigit 373, go [(58, 58)] 374, go [(93, 93)] 512]),
  (442, [go [(46, 46)] 294, go [(48, 52), (54, 57)] 443, go [(53, 53)] 444, go [(58, 58)] 374,
    go [(65, 70), (97, 102)] 371, go [(93, 93)] 512]),
  (443, [go [(46, 46)] 294, go xdigit 372, go [(58, 58)] 374, go [(93, 93)] 512]),
  (444, [go [(46, 46)] 294, go [(48, 53)] 441, go [(58, 58)] 374, go [(93, 93)] 512,
    go xdigit 372]),
  (445, [go [(46, 46)] 294, go digit 443, go [(58, 58)] 374, go [(65, 70), (97, 102)] 371,
    go [(93, 93)] 512]),
  (446, [go xdigit 371, go [(58, 58)] 374, go [(93, 93)] 512]),
  (447, [go xdigit 448]),
  (448, [go [(46, 46)] 449, go xdigit 448]),
  (449, [go userinfo 450]),
  (450, [go userinfo 450, go [(93, 93)] 512]),
  (451, [go [(35, 35)] 453, go [(37, 37)] 3, go [(47, 47)] 458, go [(63, 63)] 456,
    act alpha [.marku] 508, go segmentNc 452]),
  (452, [go segmentNc 452, go [(35, 35)] 453, go [(37, 37)] 3, go [(47, 47)] 455,
    go [(63, 63)] 456]),
  (453, [act queryChar [.marku] 454, act [(37, 37)] [.marku] 1]),
  (454, [go queryChar 454, go [(37, 37)] 1]),
  (455, [go pathChar 455, go [(35, 35)] 453, go [(37, 37)] 5, go [(63, 63)] 456]),
  (456, [act queryChar [.marku] 457, act [(35, 35)] [.marku, .saveQuery] 453,
    act [(37, 37)] [.marku] 7]),
  (457, [go queryChar 457, act [(35, 35)] [.saveQuery] 453, go [(37, 37)] 7]),
  (458, [go pchar 455, go [(35, 35)] 453, go [(37, 37)] 5, go [(47, 47)] 459, go [(63, 63)] 456]),
  (459, [act [(2, 2)] [.markh] 9, act [(35, 35)] [.markh, .saveHost] 453,
    act [(37, 37)] [.markh] 31, act [(47, 47)] [.markh, .saveHost] 455,
    act [(48, 48)] [.markh] 490, act [(49, 49)] [.markh] 504, act [(50, 50)] [.markh] 506,
    act [(51, 57)] [.markh] 505, act [(58, 58)] [.markh, .saveHost] 468,
    act [(63, 63)] [.markh, .saveHost] 456, act [(64, 64)] [.markh, .saveUserinfo] 469,
    act [(91, 91)] [.markh] 38, act regName [.markh] 467]),
  (460, [act [(35, 35)] [.saveHost] 453, act [(47, 47)] [.saveHost] 455,
    act [(58, 58)] [.saveHost] 461, act [(63, 63)] [.saveHost] 456]),
  (461, [act [(35, 35)] [.markh, .savePort] 453, act [(47, 47)] [.markh, .savePort] 455,
    act digit [.markh] 462, act [(63, 63)] [.markh, .savePort] 456]),
  (462, [act [(35, 35)] [.savePort] 453, act [(47, 47)] [.savePort] 455, go digit 462,
    act [(63, 63)] [.savePort] 456]),
  (463, [act [(35, 35)] [.saveHost] 453, act [(47, 47)] [.saveHost] 455, go digit 464,
    act [(58, 58)] [.saveHost] 461, act [(63, 63)] [.saveHost] 456]),
  (464, [act [(35, 35)] [.saveHost] 453, act [(47, 47)] [.saveHost] 455, go digit 460,
    act [(58, 58)] [.saveHost] 461, act [(63, 63)] [.saveHost] 456]),
  (465, [act [(35, 35)] [.saveHost] 453, act [(47, 47)] [.saveHost] 455,
    go [(48, 52), (54, 57)] 460, go [(53, 53)] 466, act [(58, 58)] [.saveHost] 461,
    act [(63, 63)] [.saveHost] 456]),
  (466, [act [(35, 35)] [.saveHost] 453, act [(47, 47)] [.saveHost] 455, go [(48, 53)] 460,
    act [(58, 58)] [.saveHost] 461, act [(63, 63)] [.saveHost] 456]),
  (467, [go regName 467, act [(35, 35)] [.saveHost] 453, go [(37, 37)] 31,
    act [(47, 47)] [.saveHost] 455, act [(58, 58)] [.saveHost] 468,
    act [(63, 63)] [.saveHost] 456, act [(64, 64)] [.saveUserinfo] 469]),
  (468, [act [(35, 35)] [.markh, .savePort] 453, go [(37, 37)] 34,
    act [(47, 47)] [.markh, .savePort] 455, act digit [.markh] 489,
    act [(63, 63)] [.markh, .savePort] 456, act [(64, 64)] [.saveUserinfo] 469, go userinfo 33]),
  (469, [act [(2, 2)] [.markh] 9, act [(35, 35)] [.markh, .saveHost] 453,
    act [(37, 37)] [.markh] 36, act [(47, 47)] [.markh, .saveHost] 455,
    act [(48, 48)] [.markh] 471, act [(49, 49)] [.markh] 485, act [(50, 50)] [.markh] 487,
    act [(51, 57)] [.markh] 486, act [(58, 58)] [.markh, .saveHost] 461,
    act [(63, 63)] [.markh, .saveHost] 456, act [(91, 91)] [.markh] 38, act regName [.markh] 470]),
  (470, [go regName 470, act [(35, 35)] [.saveHost] 453, go [(37, 37)] 36,
    act [(47, 47)] [.saveHost] 455, act [(58, 58)] [.saveHost] 461,
    act [(63, 63)] [.saveHost] 456]),
  (471, [act [(35, 35)] [.saveHost] 453, go [(37, 37)] 36, go [(46, 46)] 472,
    act [(47, 47)] [.saveHost] 455, act [(58, 58)] [.saveHost] 461,
    act [(63, 63)] [.saveHost] 456, go regName 470]),
  (472, [go [(2, 2)] 13, act [(35, 35)] [.saveHost] 453, go [(37, 37)] 36,
    act [(47, 47)] [.saveHost] 455, go [(48, 48)] 473, go [(49, 49)] 481, go [(50, 50)] 483,
    go [(51, 57)] 482, act [(58, 58)] [.saveHost] 461, act [(63, 63)] [.saveHost] 456,
    go regName 470]),
  (473, [act [(35, 35)] [.saveHost] 453, go [(37, 37)] 36, go [(46, 46)] 474,
    act [(47, 47)] [.saveHost] 455, act [(58, 58)] [.saveHost] 461,
    act [(63, 63)] [.saveHost] 456, go regName 470]),
  (474, [go [(2, 2)] 17, act [(35, 35)] [.saveHost] 453, go [(37, 37)] 36,
    act [(47, 47)] [.saveHost] 455, go [(48, 48)] 475, go [(49, 49)] 477, go [(50, 50)] 479,
    go [(51, 57)] 478, act [(58, 58)] [.saveHost] 461, act [(63, 63)] [.saveHost] 456,
    go regName 470]),
  (475, [act [(35, 35)] [.saveHost] 453, go [(37, 37)] 36, go [(46, 46)] 476,
    act [(47, 47)] [.saveHost] 455, act [(58, 58)] [.saveHost] 461,
    act [(63, 63)] [.saveHost] 456, go regName 470]),
  (476, [go [(2, 2)] 21, go regName 470, act [(35, 35)] [.saveHost] 453, go [(37, 37)] 36,
    act [(47, 47)] [.saveHost] 455, act [(58, 58)] [.saveHost] 461,
    act [(63, 63)] [.saveHost] 456]),
  (477, [act [(35, 35)] [.saveHost] 453, go [(37, 37)] 36, go [(46, 46)] 476,
    act [(47, 47)] [.saveHost] 455, go digit 478, act [(58, 58)] [.saveHost] 461,
    act [(63, 63)] [.saveHost] 456, go regName 470]),
  (478, [act [(35, 35)] [.saveHost] 453, go [(37, 37)] 36, go [(46, 46)] 476,
    act [(47, 47)] [.saveHost] 455, go digit 475, act [(58, 58)] [.saveHost] 461,
    act [(63, 63)] [.saveHost] 456, go regName 470]),
  (479, [act [(35, 35)] [.saveHost] 453, go [(37, 37)] 36, go [(46, 46)] 476,
    act [(47, 47)] [.saveHost] 455, go [(48, 52), (54, 57)] 475, go [(53, 53)] 480,
    act [(58, 58)] [.saveHost] 461, act [(63, 63)] [.saveHost] 456, go regName 470]),
  (480, [act [(35, 35)] [.saveHost] 453, go [(37, 37)] 36, go [(46, 46)] 476,
    act [(47, 47)] [.saveHost] 455, go [(48, 53)] 475, act [(58, 58)] [.saveHost] 461,
    act [(63, 63)] [.saveHost] 456, go regName 470])]

def rows7 : Table Action := [
  (481, [act [(35, 35)] [.saveHost] 453, go [(37, 37)] 36, go [(46, 46)] 474,
    act [(47, 47)] [.saveHost] 455, go digit 482, act [(58, 58)] [.saveHost] 461,
    act [(63, 63)] [.saveHost] 456, go regName 470]),
  (482, [act [(35, 35)] [.saveHost] 453, go [(37, 37)] 36, go [(46, 46)] 474,
    act [(47, 47)] [.saveHost] 455, go digit 473, act [(58, 58)] [.saveHost] 461,
    act [(63, 63)] [.saveHost] 456, go regName 470]),
  (483, [act [(35, 35)] [.saveHost] 453, go [(37, 37)] 36, go [(46, 46)] 474,
    act [(47, 47)] [.saveHost] 455, go [(48, 52), (54, 57)] 473, go [(53, 53)] 484,
    act [(58, 58)] [.saveHost] 461, act [(63, 63)] [.saveHost] 456, go regName 470]),
  (484, [act [(35, 35)] [.saveHost] 453, go [(37, 37)] 36, go [(46, 46)] 474,
    act [(47, 47)] [.saveHost] 455, go [(48, 53)] 473, act [(58, 58)] [.saveHost] 461,
    act [(63, 63)] [.saveHost] 456, go regName 470]),
  (485, [act [(35, 35)] [.saveHost] 453, go [(37, 37)] 36, go [(46, 46)] 472,
    act [(47, 47)] [.saveHost] 455, go digit 486, act [(58, 58)] [.saveHost] 461,
    act [(63, 63)] [.saveHost] 456, go regName 470]),
  (486, [act [(35, 35)] [.saveHost] 453, go [(37, 37)] 36, go [(46, 46)] 472,
    act [(47, 47)] [.saveHost] 455, go digit 471, act [(58, 58)] [.saveHost] 461,
    act [(63, 63)] [.saveHost] 456, go regName 470]),
  (487, [act [(35, 35)] [.saveHost] 453, go [(37, 37)] 36, go [(46, 46)] 472,
    act [(47, 47)] [.saveHost] 455, go [(48, 52), (54, 57)] 471, go [(53, 53)] 488,
    act [(58, 58)] [.saveHost] 461, act [(63, 63)] [.saveHost] 456, go regName 470]),
  (488, [act [(35, 35)] [.saveHost] 453, go [(37, 37)] 36, go [(46, 46)] 472,
    act [(47, 47)] [.saveHost] 455, go [(48, 53)] 471, act [(58, 58)] [.saveHost] 461,
    act [(63, 63)] [.saveHost] 456, go regName 470]),
  (489, [act [(35, 35)] [.savePort] 453, go [(37, 37)] 34, act [(47, 47)] [.savePort] 455,
    go digit 489, act [(63, 63)] [.savePort] 456, act [(64, 64)] [.saveUserinfo] 469,
    go userinfo 33]),
  (490, [act [(35, 35)] [.saveHost] 453, go [(37, 37)] 31, go [(46, 46)] 491,
    act [(47, 47)] [.saveHost] 455, act [(58, 58)] [.saveHost] 468,
    act [(63, 63)] [.saveHost] 456, act [(64, 64)] [.saveUserinfo] 469, go regName 467]),
  (491, [go [(2, 2)] 13, act [(35, 35)] [.saveHost] 453, go [(37, 37)] 31,
    act [(47, 47)] [.saveHost] 455, go [(48, 48)] 492, go [(49, 49)] 500, go [(50, 50)] 502,
    go [(51, 57)] 501, act [(58, 58)] [.saveHost] 468, act [(63, 63)] [.saveHost] 456,
    act [(64, 64)] [.saveUserinfo] 469, go regName 467]),
  (492, [act [(35, 35)] [.saveHost] 453, go [(37, 37)] 31, go [(46, 46)] 493,
    act [(47, 47)] [.saveHost] 455, act [(58, 58)] [.saveHost] 468,
    act [(63, 63)] [.saveHost] 456, act [(64, 64)] [.saveUserinfo] 469, go regName 467]),
  (493, [go [(2, 2)] 17, act [(35, 35)] [.saveHost] 453, go [(37, 37)] 31,
    act [(47, 47)] [.saveHost] 455, go [(48, 48)] 494, go [(49, 49)] 496, go [(50, 50)] 498,
    go [(51, 57)] 497, act [(58, 58)] [.saveHost] 468, act [(63, 63)] [.saveHost] 456,
    act [(64, 64)] [.saveUserinfo] 469, go regName 467]),
  (494, [act [(35, 35)] [.saveHost] 453, go [(37, 37)] 31, go [(46, 46)] 495,
    act [(47, 47)] [.saveHost] 455, act [(58, 58)] [.saveHost] 468,
    act [(63, 63)] [.saveHost] 456, act [(64, 64)] [.saveUserinfo] 469, go regName 467]),
  (495, [go [(2, 2)] 21, go regName 467, act [(35, 35)] [.saveHost] 453, go [(37, 37)] 31,
    act [(47, 47)] [.saveHost] 455, act [(58, 58)] [.saveHost] 468,
    act [(63, 63)] [.saveHost] 456, act [(64, 64)] [.saveUserinfo] 469]),
  (496, [act [(35, 35)] [.saveHost] 453, go [(37, 37)] 31, go [(46, 46)] 495,
    act [(47, 47)] [.saveHost] 455, go digit 497, act [(58, 58)] [.saveHost] 468,
    act [(63, 63)] [.saveHost] 456, act [(64, 64)] [.saveUserinfo] 469, go regName 467]),
  (497, [act [(35, 35)] [.saveHost] 453, go [(37, 37)] 31, go [(46, 46)] 495,
    act [(47, 47)] [.saveHost] 455, go digit 494, act [(58, 58)] [.saveHost] 468,
    act [(63, 63)] [.saveHost] 456, act [(64, 64)] [.saveUserinfo] 469, go regName 467]),
  (498, [act [(35, 35)] [.saveHost] 453, go [(37, 37)] 31, go [(46, 46)] 495,
    act [(47, 47)] [.saveHost] 455, go [(48, 52), (54, 57)] 494, go [(53, 53)] 499,
    act [(58, 58)] [.saveHost] 468, act [(63, 63)] [.saveHost] 456,
    act [(64, 64)] [.saveUserinfo] 469, go regName 467]),
  (499, [act [(35, 35)] [.saveHost] 453, go [(37, 37)] 31, go [(46, 46)] 495,
    act [(47, 47)] [.saveHost] 455, go [(48, 53)] 494, act [(58, 58)] [.saveHost] 468,
    act [(63, 63)] [.saveHost] 456, act [(64, 64)] [.saveUserinfo] 469, go regName 467]),
  (500, [act [(35, 35)] [.saveHost] 453, go [(37, 37)] 31, go [(46, 46)] 493,
    act [(47, 47)] [.saveHost] 455, go digit 501, act [(58, 58)] [.saveHost] 468,
    act [(63, 63)] [.saveHost] 456, act [(64, 64)] [.saveUserinfo] 469, go regName 467]),
  (501, [act [(35, 35)] [.saveHost] 453, go [(37, 37)] 31, go [(46, 46)] 493,
    act [(47, 47)] [.saveHost] 455, go digit 492, act [(58, 58)] [.saveHost] 468,
    act [(63, 63)] [.saveHost] 456, act [(64, 64)] [.saveUserinfo] 469, go regName 467]),
  (502, [act [(35, 35)] [.saveHost] 453, go [(37, 37)] 31, go [(46, 46)] 493,
    act [(47, 47)] [.saveHost] 455, go [(48, 52), (54, 57)] 492, go [(53, 53)] 503,
    act [(58, 58)] [.saveHost] 468, act [(63, 63)] [.saveHost] 456,
    act [(64, 64)] [.saveUserinfo] 469, go regName 467]),
  (503, [act [(35, 35)] [.saveHost] 453, go [(37, 37)] 31, go [(46, 46)] 493,
    act [(47, 47)] [.saveHost] 455, go [(48, 53)] 492, act [(58, 58)] [.saveHost] 468,
    act [(63, 63)] [.saveHost] 456, act [(64, 64)] [.saveUserinfo] 469, go regName 467]),
  (504, [act [(35, 35)] [.saveHost] 453, go [(37, 37)] 31, go [(46, 46)] 491,
    act [(47, 47)] [.saveHost] 455, go digit 505, act [(58, 58)] [.saveHost] 468,
    act [(63, 63)] [.saveHost] 456, act [(64, 64)] [.saveUserinfo] 469, go regName 467]),
  (505, [act [(35, 35)] [.saveHost] 453, go [(37, 37)] 31, go [(46, 46)] 491,
    act [(47, 47)] [.saveHost] 455, go digit 490, act [(58, 58)] [.saveHost] 468,
    act [(63, 63)] [.saveHost] 456, act [(64, 64)] [.saveUserinfo] 469, go regName 467]),
  (506, [act [(35, 35)] [.saveHost] 453, go [(37, 37)] 31, go [(46, 46)] 491,
    act [(47, 47)] [.saveHost] 455, go [(48, 52), (54, 57)] 490, go [(53, 53)] 507,
    act [(58, 58)] [.saveHost] 468, act [(63, 63)] [.saveHost] 456,
    act [(64, 64)] [.saveUserinfo] 469, go regName 467]),
  (507, [act [(35, 35)] [.saveHost] 453, go [(37, 37)] 31, go [(46, 46)] 491,
    act [(47, 47)] [.saveHost] 455, go [(48, 53)] 490, act [(58, 58)] [.saveHost] 468,
    act [(63, 63)] [.saveHost] 456, act [(64, 64)] [.saveUserinfo] 469, go regName 467]),
  (508, [go [(35, 35)] 453, go [(37, 37)] 3, go schemeChar 508, go [(47, 47)] 455,
    act [(58, 58)] [.saveScheme] 509, go [(63, 63)] 456, go segmentNc 452]),
  (509, [go pchar 455, go [(35, 35)] 453, go [(37, 37)] 5, go [(47, 47)] 510, go [(63, 63)] 456]),
  (510, [go pchar 455, go [(35, 35)] 453, go [(37, 37)] 5, go [(47, 47)] 511, go [(63, 63)] 456]),
  (511, [act [(2, 2)] [.markh] 229, act [(35, 35)] [.markh, .saveHost, .savePath] 453,
    act [(37, 37)] [.markh] 253, act [(47, 47)] [.markh, .saveHost] 513,
    act [(48, 48)] [.markh] 543, act [(49, 49)] [.markh] 557, act [(50, 50)] [.markh] 559,
    act [(51, 57)] [.markh] 558, act [(58, 58)] [.markh, .saveHost] 521,
    act [(63, 63)] [.markh, .saveHost, .savePath] 456,
    act [(64, 64)] [.markh, .saveUserinfo] 522, act [(91, 91)] [.markh] 260,
    act regName [.markh] 520]),
  (512, [act [(35, 35)] [.saveHost, .markh, .savePath] 453,
    act [(47, 47)] [.saveHost, .markh] 513, act [(58, 58)] [.saveHost] 514,
    act [(63, 63)] [.saveHost, .markh, .savePath] 456]),
  (513, [go pathChar 513, act [(35, 35)] [.savePath] 453, go [(37, 37)] 243,
    act [(63, 63)] [.savePath] 456]),
  (514, [act [(35, 35)] [.markh, .savePort, .savePath] 453,
    act [(47, 47)] [.markh, .savePort] 513, act digit [.markh] 515,
    act [(63, 63)] [.markh, .savePort, .savePath] 456]),
  (515, [act [(35, 35)] [.savePort, .markh, .savePath] 453,
    act [(47, 47)] [.savePort, .markh] 513, go digit 515,
    act [(63, 63)] [.savePort, .markh, .savePath] 456]),
  (516, [act [(35, 35)] [.saveHost, .markh, .savePath] 453,
    act [(47, 47)] [.saveHost, .markh] 513, go digit 517, act [(58, 58)] [.saveHost] 514,
    act [(63, 63)] [.saveHost, .markh, .savePath] 456]),
  (517, [act [(35, 35)] [.saveHost, .markh, .savePath] 453,
    act [(47, 47)] [.saveHost, .markh] 513, go digit 512, act [(58, 58)] [.saveHost] 514,
    act [(63, 63)] [.saveHost, .markh, .savePath] 456]),
  (518, [act [(35, 35)] [.saveHost, .markh, .savePath] 453,
    act [(47, 47)] [.saveHost, .markh] 513, go [(48, 52), (54, 57)] 512, go [(53, 53)] 519,
    act [(58, 58)] [.saveHost] 514, act [(63, 63)] [.saveHost, .markh, .savePath] 456]),
  (519, [act [(35, 35)] [.saveHost, .markh, .savePath] 453,
    act [(47, 47)] [.saveHost, .markh] 513, go [(48, 53)] 512, act [(58, 58)] [.saveHost] 514,
    act [(63, 63)] [.saveHost, .markh, .savePath] 456]),
  (520, [go regName 520, act [(35, 35)] [.saveHost, .markh, .savePath] 453, go [(37, 37)] 253,
    act [(47, 47)] [.saveHost, .markh] 513, act [(58, 58)] [.saveHost] 521,
    act [(63, 63)] [.saveHost, .markh, .savePath] 456, act [(64, 64)] [.saveUserinfo] 522]),
  (521, [act [(35, 35)] [.markh, .savePort, .savePath] 453, go [(37, 37)] 256,
    act [(47, 47)] [.markh, .savePort] 513, act digit [.markh] 542,
    act [(63, 63)] [.markh, .savePort, .savePath] 456, act [(64, 64)] [.saveUserinfo] 522,
    go userinfo 255]),
  (522, [act [(2, 2)] [.markh] 229, act [(35, 35)] [.markh, .saveHost, .savePath] 453,
    act [(37, 37)] [.markh] 258, act [(47, 47)] [.markh, .saveHost] 513,
    act [(48, 48)] [.markh] 524, act [(49, 49)] [.markh] 538, act [(50, 50)] [.markh] 540,
    act [(51, 57)] [.markh] 539, act [(58, 58)] [.markh, .saveHost] 514,
    act [(63, 63)] [.markh, .saveHost, .savePath] 456, act [(91, 91)] [.markh] 260,
    act regName [.markh] 523]),
  (523, [go regName 523, act [(35, 35)] [.saveHost, .markh, .savePath] 453, go [(37, 37)] 258,
    act [(47, 47)] [.saveHost, .markh] 513, act [(58, 58)] [.saveHost] 514,
    act [(63, 63)] [.saveHost, .markh, .savePath] 456]),
  (524, [act [(35, 35)] [.saveHost, .markh, .savePath] 453, go [(37, 37)] 258, go [(46, 46)] 525,
    act [(47, 47)] [.saveHost, .markh] 513, act [(58, 58)] [.saveHost] 514,
    act [(63, 63)] [.saveHost, .markh, .savePath] 456, go regName 523]),
  (525, [go [(2, 2)] 233, act [(35, 35)] [.saveHost, .markh, .savePath] 453, go [(37, 37)] 258,
    act [(47, 47)] [.saveHost, .markh] 513, go [(48, 48)] 526, go [(49, 49)] 534,
    go [(50, 50)] 536, go [(51, 57)] 535, act [(58, 58)] [.saveHost] 514,
    act [(63, 63)] [.saveHost, .markh, .savePath] 456, go regName 523]),
  (526, [act [(35, 35)] [.saveHost, .markh, .savePath] 453, go [(37, 37)] 258, go [(46, 46)] 527,
    act [(47, 47)] [.saveHost, .markh] 513, act [(58, 58)] [.saveHost] 514,
    act [(63, 63)] [.saveHost, .markh, .savePath] 456, go regName 523]),
  (527, [go [(2, 2)] 237, act [(35, 35)] [.saveHost, .markh, .savePath] 453, go [(37, 37)] 258,
    act [(47, 47)] [.saveHost, .markh] 513, go [(48, 48)] 528, go [(49, 49)] 530,
    go [(50, 50)] 532, go [(51, 57)] 531, act [(58, 58)] [.saveHost] 514,
    act [(63, 63)] [.saveHost, .markh, .savePath] 456, go regName 523]),
  (528, [act [(35, 35)] [.saveHost, .markh, .savePath] 453, go [(37, 37)] 258, go [(46, 46)] 529,
    act [(47, 47)] [.saveHost, .markh] 513, act [(58, 58)] [.saveHost] 514,
    act [(63, 63)] [.saveHost, .markh, .savePath] 456, go regName 523]),
  (529, [go [(2, 2)] 241, go regName 523, act [(35, 35)] [.saveHost, .markh, .savePath] 453,
    go [(37, 37)] 258, act [(47, 47)] [.saveHost, .markh] 513, act [(58, 58)] [.saveHost] 514,
    act [(63, 63)] [.saveHost, .markh, .savePath] 456]),
  (530, [act [(35, 35)] [.saveHost, .markh, .savePath] 453, go [(37, 37)] 258, go [(46, 46)] 529,
    act [(47, 47)] [.saveHost, .markh] 513, go digit 531, act [(58, 58)] [.saveHost] 514,
    act [(63, 63)] [.saveHost, .markh, .savePath] 456, go regName 523]),
  (531, [act [(35, 35)] [.saveHost, .markh, .savePath] 453, go [(37, 37)] 258, go [(46, 46)] 529,
    act [(47, 47)] [.saveHost, .markh] 513, go digit 528, act [(58, 58)] [.saveHost] 514,
    act [(63, 63)] [.saveHost, .markh, .savePath] 456, go regName 523]),
  (532, [act [(35, 35)] [.saveHost, .markh, .savePath] 453, go [(37, 37)] 258, go [(46, 46)] 529,
    act [(47, 47)] [.saveHost, .markh] 513, go [(48, 52), (54, 57)] 528, go [(53, 53)] 533,
    act [(58, 58)] [.saveHost] 514, act [(63, 63)] [.saveHost, .markh, .savePath] 456,
    go regName 523]),
  (533, [act [(35, 35)] [.saveHost, .markh, .savePath] 453, go [(37, 37)] 258, go [(46, 46)] 529,
    act [(47, 47)] [.saveHost, .markh] 513, go [(48, 53)] 528, act [(58, 58)] [.saveHost] 514,
    act [(63, 63)] [.saveHost, .markh, .savePath] 456, go regName 523]),
  (534, [act [(35, 35)] [.saveHost, .markh, .savePath] 453, go [(37, 37)] 258, go [(46, 46)] 527,
    act [(47, 47)] [.saveHost, .markh] 513, go digit 535, act [(58, 58)] [.saveHost] 514,
    act [(63, 63)] [.saveHost, .markh, .savePath] 456, go regName 523]),
  (535, [act [(35, 35)] [.saveHost, .markh, .savePath] 453, go [(37, 37)] 258, go [(46, 46)] 527,
    act [(47, 47)] [.saveHost, .markh] 513, go digit 526, act [(58, 58)] [.saveHost] 514,
    act [(63, 63)] [.saveHost, .markh, .savePath] 456, go regName 523]),
  (536, [act [(35, 35)] [.saveHost, .markh, .savePath] 453, go [(37, 37)] 258, go [(46, 46)] 527,
    act [(47, 47)] [.saveHost, .markh] 513, go [(48, 52), (54, 57)] 526, go [(53, 53)] 537,
    act [(58, 58)] [.saveHost] 514, act [(63, 63)] [.saveHost, .markh, .savePath] 456,
    go regName 523]),
  (537, [act [(35, 35)] [.saveHost, .markh, .savePath] 453, go [(37, 37)] 258, go [(46, 46)] 527,
    act [(47, 47)] [.saveHost, .markh] 513, go [(48, 53)] 526, act [(58, 58)] [.saveHost] 514,
    act [(63, 63)] [.saveHost, .markh, .savePath] 456, go regName 523]),
  (538, [act [(35, 35)] [.saveHost, .markh, .savePath] 453, go [(37, 37)] 258, go [(46, 46)] 525,
    act [(47, 47)] [.saveHost, .markh] 513, go digit 539, act [(58, 58)] [.saveHost] 514,
    act [(63, 63)] [.saveHost, .markh, .savePath] 456, go regName 523]),
  (539, [act [(35, 35)] [.saveHost, .markh, .savePath] 453, go [(37, 37)] 258, go [(46, 46)] 525,
    act [(47, 47)] [.saveHost, .markh] 513, go digit 524, act [(58, 58)] [.saveHost] 514,
    act [(63, 63)] [.saveHost, .markh, .savePath] 456, go regName 523]),
  (540, [act [(35, 35)] [.saveHost, .markh, .savePath] 453, go [(37, 37)] 258, go [(46, 46)] 525,
    act [(47, 47)] [.saveHost, .markh] 513, go [(48, 52), (54, 57)] 524, go [(53, 53)] 541,
    act [(58, 58)] [.saveHost] 514, act [(63, 63)] [.saveHost, .markh, .savePath] 456,
    go regName 523]),
  (541, [act [(35, 35)] [.saveHost, .markh, .savePath] 453, go [(37, 37)] 258, go [(46, 46)] 525,
    act [(47, 47)] [.saveHost, .markh] 513, go [(48, 53)] 524, act [(58, 58)] [.saveHost] 514,
    act [(63, 63)] [.saveHost, .markh, .savePath] 456, go regName 523]),
  (542, [act [(35, 35)] [.savePort, .markh, .savePath] 453, go [(37, 37)] 256,
    act [(47, 47)] [.savePort, .markh] 513, go digit 542,
    act [(63, 63)] [.savePort, .markh, .savePath] 456, act [(64, 64)] [.saveUserinfo] 522,
    go userinfo 255]),
  (543, [act [(35, 35)] [.saveHost, .markh, .savePath] 453, go [(37, 37)] 253, go [(46, 46)] 544,
    act [(47, 47)] [.saveHost, .markh] 513, act [(58, 58)] [.saveHost] 521,
    act [(63, 63)] [.saveHost, .markh, .savePath] 456, act [(64, 64)] [.saveUserinfo] 522,
    go regName 520]),
  (544, [go [(2, 2)] 233, act [(35, 35)] [.saveHost, .markh, .savePath] 453, go [(37, 37)] 253,
    act [(47, 47)] [.saveHost, .markh] 513, go [(48, 48)] 545, go [(49, 49)] 553,
    go [(50, 50)] 555, go [(51, 57)] 554, act [(58, 58)] [.saveHost] 521,
    act [(63, 63)] [.saveHost, .markh, .savePath] 456, act [(64, 64)] [.saveUserinfo] 522,
    go regName 520]),
  (545, [act [(35, 35)] [.saveHost, .markh, .savePath] 453, go [(37, 37)] 253, go [(46, 46)] 546,
    act [(47, 47)] [.saveHost, .markh] 513, act [(58, 58)] [.saveHost] 521,
    act [(63, 63)] [.saveHost, .markh, .savePath] 456, act [(64, 64)] [.saveUserinfo] 522,
    go regName 520]),
  (546, [go [(2, 2)] 237, act [(35, 35)] [.saveHost, .markh, .savePath] 453, go [(37, 37)] 253,
    act [(47, 47)] [.saveHost, .markh] 513, go [(48, 48)] 547, go [(49, 49)] 549,
    go [(50, 50)] 551, go [(51, 57)] 550, act [(58, 58)] [.saveHost] 521,
    act [(63, 63)] [.saveHost, .markh, .savePath] 456, act [(64, 64)] [.saveUserinfo] 522,
    go regName 520]),
  (547, [act [(35, 35)] [.saveHost, .markh, .savePath] 453, go [(37, 37)] 253, go [(46, 46)] 548,
    act [(47, 47)] [.saveHost, .markh] 513, act [(58, 58)] [.saveHost] 521,
    act [(63, 63)] [.saveHost, .markh, .savePath] 456, act [(64, 64)] [.saveUserinfo] 522,
    go regName 520]),
  (548, [go [(2, 2)] 241, go regName 520, act [(35, 35)] [.saveHost, .markh, .savePath] 453,
    go [(37, 37)] 253, act [(47, 47)] [.saveHost, .markh] 513, act [(58, 58)] [.saveHost] 521,
    act [(63, 63)] [.saveHost, .markh, .savePath] 456, act [(64, 64)] [.saveUserinfo] 522]),
  (549, [act [(35, 35)] [.saveHost, .markh, .savePath] 453, go [(37, 37)] 253, go [(46, 46)] 548,
    act [(47, 47)] [.saveHost, .markh] 513, go digit 550, act [(58, 58)] [.saveHost] 521,
    act [(63, 63)] [.saveHost, .markh, .savePath] 456, act [(64, 64)] [.saveUserinfo] 522,
    go regName 520]),
  (550, [act [(35, 35)] [.saveHost, .markh, .savePath] 453, go [(37, 37)] 253, go [(46, 46)] 548,
    act [(47, 47)] [.saveHost, .markh] 513, go digit 547, act [(58, 58)] [.saveHost] 521,
    act [(63, 63)] [.saveHost, .markh, .savePath] 456, act [(64, 64)] [.saveUserinfo] 522,
    go regName 520]),
  (551, [act [(35, 35)] [.saveHost, .markh, .savePath] 453, go [(37, 37)] 253, go [(46, 46)] 548,
    act [(47, 47)] [.saveHost, .markh] 513, go [(48, 52), (54, 57)] 547, go [(53, 53)] 552,
    act [(58, 58)] [.saveHost] 521, act [(63, 63)] [.saveHost, .markh, .savePath] 456,
    act [(64, 64)] [.saveUserinfo] 522, go regName 520]),
  (552, [act [(35, 35)] [.saveHost, .markh, .savePath] 453, go [(37, 37)] 253, go [(46, 46)] 548,
    act [(47, 47)] [.saveHost, .markh] 513, go [(48, 53)] 547, act [(58, 58)] [.saveHost] 521,
    act [(63, 63)] [.saveHost, .markh, .savePath] 456, act [(64, 64)] [.saveUserinfo] 522,
    go regName 520]),
  (553, [act [(35, 35)] [.saveHost, .markh, .savePath] 453, go [(37, 37)] 253, go [(46, 46)] 546,
    act [(47, 47)] [.saveHost, .markh] 513, go digit 554, act [(58, 58)] [.saveHost] 521,
    act [(63, 63)] [.saveHost, .markh, .savePath] 456, act [(64, 64)] [.saveUserinfo] 522,
    go regName 520]),
  (554, [act [(35, 35)] [.saveHost, .markh, .savePath] 453, go [(37, 37)] 253, go [(46, 46)] 546,
    act [(47, 47)] [.saveHost, .markh] 513, go digit 545, act [(58, 58)] [.saveHost] 521,
    act [(63, 63)] [.saveHost, .markh, .savePath] 456, act [(64, 64)] [.saveUserinfo] 522,
    go regName 520]),
  (555, [act [(35, 35)] [.saveHost, .markh, .savePath] 453, go [(37, 37)] 253, go [(46, 46)] 546,
    act [(47, 47)] [.saveHost, .markh] 513, go [(48, 52), (54, 57)] 545, go [(53, 53)] 556,
    act [(58, 58)] [.saveHost] 521, act [(63, 63)] [.saveHost, .markh, .savePath] 456,
    act [(64, 64)] [.saveUserinfo] 522, go regName 520]),
  (556, [act [(35, 35)] [.saveHost, .markh, .savePath] 453, go [(37, 37)] 253, go [(46, 46)] 546,
    act [(47, 47)] [.saveHost, .markh] 513, go [(48, 53)] 545, act [(58, 58)] [.saveHost] 521,
    act [(63, 63)] [.saveHost, .markh, .savePath] 456, act [(64, 64)] [.saveUserinfo] 522,
    go regName 520]),
  (557, [act [(35, 35)] [.saveHost, .markh, .savePath] 453, go [(37, 37)] 253, go [(46, 46)] 544,
    act [(47, 47)] [.saveHost, .markh] 513, go digit 558, act [(58, 58)] [.saveHost] 521,
    act [(63, 63)] [.saveHost, .markh, .savePath] 456, act [(64, 64)] [.saveUserinfo] 522,
    go regName 520]),
  (558, [act [(35, 35)] [.saveHost, .markh, .savePath] 453, go [(37, 37)] 253, go [(46, 46)] 544,
    act [(47, 47)] [.saveHost, .markh] 513, go digit 543, act [(58, 58)] [.saveHost] 521,
    act [(63, 63)] [.saveHost, .markh, .savePath] 456, act [(64, 64)] [.saveUserinfo] 522,
    go regName 520]),
  (559, [act [(35, 35)] [.saveHost, .markh, .savePath] 453, go [(37, 37)] 253, go [(46, 46)] 544,
    act [(47, 47)] [.saveHost, .markh] 513, go [(48, 52), (54, 57)] 543, go [(53, 53)] 560,
    act [(58, 58)] [.saveHost] 521, act [(63, 63)] [.saveHost, .markh, .savePath] 456,
    act [(64, 64)] [.saveUserinfo] 522, go regName 520]),
  (560, [act [(35, 35)] [.saveHost, .markh, .savePath] 453, go [(37, 37)] 253, go [(46, 46)] 544,
    act [(47, 47)] [.saveHost, .markh] 513, go [(48, 53)] 543, act [(58, 58)] [.saveHost] 521,
    act [(63, 63)] [.saveHost, .markh, .savePath] 456, act [(64, 64)] [.saveUserinfo] 522,
    go regName 520])]
/-- What the states do at the end of the text. -/
def eofRows : List (List (Nat × Nat) × List Action) := [
  ([(453, 453)], [.marku, .saveFragment]),
  ([(454, 454)], [.saveFragment]),
  ([(456, 456)], [.marku, .saveQuery]),
  ([(457, 457)], [.saveQuery]),
  ([(459, 459), (469, 469)], [.markh, .saveHost]),
  ([(460, 460), (463, 467), (470, 488), (490, 507)], [.saveHost]),
  ([(461, 461), (468, 468)], [.markh, .savePort]),
  ([(462, 462), (489, 489)], [.savePort]),
  ([(511, 511), (522, 522)], [.markh, .saveHost, .savePath]),
  ([(512, 512), (516, 520), (523, 541), (543, 560)], [.saveHost, .markh, .savePath]),
  ([(513, 513)], [.savePath]),
  ([(514, 514), (521, 521)], [.markh, .savePort, .savePath]),
  ([(515, 515), (542, 542)], [.savePort, .markh, .savePath])]

end ParserTable

def uriParserStart : Nat := 451

def uriParserFirstFinal : Nat := 451

def uriParserError : Nat := 0

def uriParserTable : Table Action :=
  ParserTable.rows1 ++ ParserTable.rows2 ++ ParserTable.rows3 ++ ParserTable.rows4 ++
    ParserTable.rows5 ++ ParserTable.rows6 ++ ParserTable.rows7

/-- No action leaves the loop. -/
def uriParser : Transducer Nat UInt8 Action where
  next := uriParserTable.next
  halts _ := false

def eofActions (cs : Nat) : List Action :=
  match ParserTable.eofRows.find? fun r => r.1.any fun s => s.1.ble cs && cs.ble s.2 with
  | some r => r.2
  | none => []

end HCServer.Uris
