import Mathlib.Tactic

/-!
`oracle_zones.rs` of `tns-thin`: the names of the time zone regions that Oracle numbers.

A region is sent in 13 bits (`oracleZoneName_lt`). Some numbers are multiples of 64, whose lower
bits are all clear.
-/

namespace SpaceQuery.Thin

/-- Zones whose names have the same start. -/
def zonesOf (area : String) (zones : List (ℕ × String)) : List (ℕ × String) :=
  zones.map fun (regionId, name) => (regionId, area ++ name)

/-- The arms of `oracle_zone_name`. -/
def oracleZones : List (ℕ × String) :=
  zonesOf "Africa/" [(42, "Abidjan"), (50, "Accra"), (47, "Addis_Ababa"), (30, "Algiers"),
      (46, "Asmara"), (558, "Asmera"), (58, "Bamako"), (37, "Bangui"), (49, "Banjul"),
      (52, "Bissau"), (57, "Blantyre"), (41, "Brazzaville"), (35, "Bujumbura"), (44, "Cairo"),
      (61, "Casablanca"), (81, "Ceuta"), (51, "Conakry"), (69, "Dakar"), (75, "Dar_es_Salaam"),
      (43, "Djibouti"), (36, "Douala"), (62, "El_Aaiun"), (70, "Freetown"), (33, "Gaborone"),
      (80, "Harare"), (72, "Johannesburg"), (321, "Juba"), (78, "Kampala"), (73, "Khartoum"),
      (67, "Kigali"), (39, "Kinshasa"), (66, "Lagos"), (48, "Libreville"), (76, "Lome"),
      (31, "Luanda"), (40, "Lubumbashi"), (79, "Lusaka"), (45, "Malabo"), (63, "Maputo"),
      (54, "Maseru"), (74, "Mbabane"), (71, "Mogadishu"), (55, "Monrovia"), (53, "Nairobi"),
      (38, "Ndjamena"), (65, "Niamey"), (60, "Nouakchott"), (34, "Ouagadougou"), (32, "Porto-Novo"),
      (68, "Sao_Tome"), (570, "Timbuktu"), (56, "Tripoli"), (77, "Tunis"), (64, "Windhoek")]
    ++ zonesOf "America/" [(108, "Adak"), (106, "Anchorage"), (146, "Anguilla"), (147, "Antigua"),
      (186, "Araguaina"), (687, "Argentina/Buenos_Aires"), (691, "Argentina/Catamarca"),
      (1203, "Argentina/ComodRivadavia"), (689, "Argentina/Cordoba"), (690, "Argentina/Jujuy"),
      (99, "Argentina/La_Rioja"), (692, "Argentina/Mendoza"), (98, "Argentina/Rio_Gallegos"),
      (237, "Argentina/Salta"), (229, "Argentina/San_Juan"), (97, "Argentina/San_Luis"),
      (228, "Argentina/Tucuman"), (176, "Argentina/Ushuaia"), (181, "Aruba"), (200, "Asuncion"),
      (221, "Atikokan"), (620, "Atka"), (90, "Bahia"), (95, "Bahia_Banderas"), (149, "Barbados"),
      (184, "Belem"), (150, "Belize"), (224, "Blanc-Sablon"), (191, "Boa_Vista"), (195, "Bogota"),
      (110, "Boise"), (175, "Buenos_Aires"), (135, "Cambridge_Bay"), (222, "Campo_Grande"),
      (140, "Cancun"), (205, "Caracas"), (179, "Catamarca"), (198, "Cayenne"), (151, "Cayman"),
      (101, "Chicago"), (142, "Chihuahua"), (733, "Coral_Harbour"), (177, "Cordoba"),
      (152, "Costa_Rica"), (325, "Creston"), (189, "Cuiaba"), (196, "Curacao"),
      (223, "Danmarkshavn"), (139, "Dawson"), (131, "Dawson_Creek"), (102, "Denver"),
      (116, "Detroit"), (154, "Dominica"), (129, "Edmonton"), (225, "Eirunepe"),
      (156, "El_Salvador"), (657, "Ensenada"), (343, "Fort_Nelson"), (623, "Fort_Wayne"),
      (185, "Fortaleza"), (121, "Glace_Bay"), (207, "Godthab"), (119, "Goose_Bay"),
      (172, "Grand_Turk"), (157, "Grenada"), (158, "Guadeloupe"), (159, "Guatemala"),
      (197, "Guayaquil"), (199, "Guyana"), (120, "Halifax"), (153, "Havana"), (143, "Hermosillo"),
      (1647, "Indiana/Indianapolis"), (113, "Indiana/Knox"), (112, "Indiana/Marengo"),
      (210, "Indiana/Petersburg"), (94, "Indiana/Tell_City"), (114, "Indiana/Vevay"),
      (209, "Indiana/Vincennes"), (218, "Indiana/Winamac"), (111, "Indianapolis"), (137, "Inuvik"),
      (133, "Iqaluit"), (162, "Jamaica"), (178, "Jujuy"), (104, "Juneau"),
      (627, "Kentucky/Louisville"), (91, "Kentucky/Monticello"), (625, "Knox_IN"),
      (323, "Kralendijk"), (182, "La_Paz"), (201, "Lima"), (103, "Los_Angeles"),
      (115, "Louisville"), (322, "Lower_Princes"), (187, "Maceio"), (165, "Managua"),
      (192, "Manaus"), (670, "Marigot"), (163, "Martinique"), (87, "Matamoros"), (144, "Mazatlan"),
      (180, "Mendoza"), (117, "Menominee"), (226, "Merida"), (319, "Metlakatla"),
      (141, "Mexico_City"), (170, "Miquelon"), (92, "Moncton"), (227, "Monterrey"),
      (204, "Montevideo"), (122, "Montreal"), (164, "Montserrat"), (148, "Nassau"),
      (100, "New_York"), (124, "Nipigon"), (107, "Nome"), (183, "Noronha"),
      (320, "North_Dakota/Beulah"), (88, "North_Dakota/Center"), (89, "North_Dakota/New_Salem"),
      (93, "Ojinaga"), (166, "Panama"), (132, "Pangnirtung"), (202, "Paramaribo"), (109, "Phoenix"),
      (160, "Port-au-Prince"), (203, "Port_of_Spain"), (193, "Porto_Acre"), (190, "Porto_Velho"),
      (167, "Puerto_Rico"), (394, "Punta_Arenas"), (125, "Rainy_River"), (134, "Rankin_Inlet"),
      (86, "Recife"), (127, "Regina"), (219, "Resolute"), (1217, "Rio_Branco"), (1201, "Rosario"),
      (96, "Santa_Isabel"), (83, "Santarem"), (194, "Santiago"), (155, "Santo_Domingo"),
      (188, "Sao_Paulo"), (206, "Scoresbysund"), (1638, "Shiprock"), (318, "Sitka"),
      (1182, "St_Barthelemy"), (118, "St_Johns"), (168, "St_Kitts"), (169, "St_Lucia"),
      (174, "St_Thomas"), (171, "St_Vincent"), (128, "Swift_Current"), (161, "Tegucigalpa"),
      (208, "Thule"), (123, "Thunder_Bay"), (145, "Tijuana"), (220, "Toronto"), (173, "Tortola"),
      (130, "Vancouver"), (686, "Virgin"), (138, "Whitehorse"), (126, "Winnipeg"), (105, "Yakutat"),
      (136, "Yellowknife")]
    ++ zonesOf "Antarctica/" [(230, "Casey"), (231, "Davis"), (233, "DumontDUrville"),
      (85, "Macquarie"), (232, "Mawson"), (236, "McMurdo"), (235, "Palmer"), (82, "Rothera"),
      (748, "South_Pole"), (234, "Syowa"), (329, "Troll"), (59, "Vostok")]
    ++ [(909, "Arctic/Longyearbyen")]
    ++ zonesOf "Asia/" [(302, "Aden"), (269, "Almaty"), (268, "Amman"), (312, "Anadyr"),
      (271, "Aqtau"), (270, "Aqtobe"), (297, "Ashgabat"), (809, "Ashkhabad"), (363, "Atyrau"),
      (265, "Baghdad"), (243, "Bahrain"), (242, "Baku"), (296, "Bangkok"), (359, "Barnaul"),
      (277, "Beirut"), (272, "Bishkek"), (246, "Brunei"), (260, "Calcutta"), (335, "Chita"),
      (316, "Choibalsan"), (763, "Chongqing"), (251, "Chungking"), (293, "Colombo"), (244, "Dacca"),
      (294, "Damascus"), (756, "Dhaka"), (259, "Dili"), (298, "Dubai"), (295, "Dushanbe"),
      (362, "Famagusta"), (285, "Gaza"), (249, "Harbin"), (324, "Hebron"), (813, "Ho_Chi_Minh"),
      (254, "Hong_Kong"), (280, "Hovd"), (307, "Irkutsk"), (1431, "Istanbul"), (261, "Jakarta"),
      (263, "Jayapura"), (266, "Jerusalem"), (240, "Kabul"), (311, "Kamchatka"), (284, "Karachi"),
      (253, "Kashgar"), (797, "Kathmandu"), (282, "Katmandu"), (326, "Khandyga"), (772, "Kolkata"),
      (306, "Krasnoyarsk"), (278, "Kuala_Lumpur"), (279, "Kuching"), (275, "Kuwait"),
      (256, "Macao"), (768, "Macau"), (310, "Magadan"), (774, "Makassar"), (286, "Manila"),
      (283, "Muscat"), (257, "Nicosia"), (84, "Novokuznetsk"), (305, "Novosibirsk"), (304, "Omsk"),
      (315, "Oral"), (248, "Phnom_Penh"), (313, "Pontianak"), (274, "Pyongyang"), (287, "Qatar"),
      (314, "Qyzylorda"), (247, "Rangoon"), (288, "Riyadh"), (301, "Saigon"), (317, "Sakhalin"),
      (299, "Samarkand"), (273, "Seoul"), (250, "Shanghai"), (292, "Singapore"),
      (341, "Srednekolymsk"), (255, "Taipei"), (300, "Tashkent"), (258, "Tbilisi"), (264, "Tehran"),
      (778, "Tel_Aviv"), (757, "Thimbu"), (245, "Thimphu"), (267, "Tokyo"), (360, "Tomsk"),
      (262, "Ujung_Pandang"), (281, "Ulaanbaatar"), (793, "Ulan_Bator"), (252, "Urumqi"),
      (327, "Ust-Nera"), (276, "Vientiane"), (309, "Vladivostok"), (308, "Yakutsk"),
      (361, "Yangon"), (303, "Yekaterinburg"), (241, "Yerevan")]
    ++ zonesOf "Atlantic/" [(336, "Azores"), (330, "Bermuda"), (338, "Canary"), (339, "Cape_Verde"),
      (845, "Faeroe"), (333, "Faroe"), (1421, "Jan_Mayen"), (337, "Madeira"), (334, "Reykjavik"),
      (332, "South_Georgia"), (340, "St_Helena"), (331, "Stanley")]
    ++ zonesOf "Australia/" [(864, "ACT"), (349, "Adelaide"), (347, "Brisbane"),
      (353, "Broken_Hill"), (1376, "Canberra"), (355, "Currie"), (345, "Darwin"), (356, "Eucla"),
      (350, "Hobart"), (866, "LHI"), (348, "Lindeman"), (354, "Lord_Howe"), (351, "Melbourne"),
      (857, "North"), (1888, "NSW"), (346, "Perth"), (859, "Queensland"), (861, "South"),
      (352, "Sydney"), (862, "Tasmania"), (863, "Victoria"), (858, "West"), (865, "Yancowinna")]
    ++ [(705, "Brazil/Acre"), (695, "Brazil/DeNoronha"), (700, "Brazil/East"), (704, "Brazil/West")]
    ++ zonesOf "Canada/" [(632, "Atlantic"), (638, "Central"), (639, "East-Saskatchewan"),
      (634, "Eastern"), (641, "Mountain"), (630, "Newfoundland"), (642, "Pacific"),
      (1151, "Saskatchewan"), (650, "Yukon")]
    ++ [(366, "CET"), (706, "Chile/Continental"), (963, "Chile/EasterIsland"), (1637, "CST"),
      (215, "CST6CDT"), (665, "Cuba"), (368, "EET"), (556, "Egypt"), (883, "Eire"), (211, "EST"),
      (214, "EST5EDT")]
    ++ zonesOf "Etc/" [(1, "GMT"), (1025, "GMT+0"), (16, "GMT+1"), (25, "GMT+10"), (26, "GMT+11"),
      (27, "GMT+12"), (17, "GMT+2"), (18, "GMT+3"), (19, "GMT+4"), (20, "GMT+5"), (21, "GMT+6"),
      (22, "GMT+7"), (23, "GMT+8"), (24, "GMT+9"), (3073, "GMT0"), (2049, "GMT-0"), (15, "GMT-1"),
      (6, "GMT-10"), (5, "GMT-11"), (4, "GMT-12"), (3, "GMT-13"), (2, "GMT-14"), (14, "GMT-2"),
      (13, "GMT-3"), (12, "GMT-4"), (11, "GMT-5"), (10, "GMT-6"), (9, "GMT-7"), (8, "GMT-8"),
      (7, "GMT-9"), (4097, "Greenwich"), (29, "UCT"), (540, "Universal"), (28, "UTC"),
      (1564, "Zulu")]
    ++ zonesOf "Europe/" [(396, "Amsterdam"), (373, "Andorra"), (344, "Astrakhan"), (385, "Athens"),
      (370, "Belfast"), (412, "Belgrade"), (383, "Berlin"), (890, "Bratislava"), (376, "Brussels"),
      (400, "Bucharest"), (386, "Budapest"), (328, "Busingen"), (393, "Chisinau"),
      (379, "Copenhagen"), (371, "Dublin"), (384, "Gibraltar"), (2417, "Guernsey"),
      (381, "Helsinki"), (2929, "Isle_of_Man"), (407, "Istanbul"), (1905, "Jersey"),
      (401, "Kaliningrad"), (408, "Kiev"), (357, "Kirov"), (399, "Lisbon"), (924, "Ljubljana"),
      (369, "London"), (391, "Luxembourg"), (404, "Madrid"), (392, "Malta"), (893, "Mariehamn"),
      (375, "Minsk"), (395, "Monaco"), (402, "Moscow"), (769, "Nicosia"), (397, "Oslo"),
      (382, "Paris"), (2972, "Podgorica"), (378, "Prague"), (388, "Riga"), (387, "Rome"),
      (403, "Samara"), (1411, "San_Marino"), (1436, "Sarajevo"), (364, "Saratov"),
      (411, "Simferopol"), (1948, "Skopje"), (377, "Sofia"), (405, "Stockholm"), (380, "Tallinn"),
      (372, "Tirane"), (905, "Tiraspol"), (358, "Ulyanovsk"), (409, "Uzhgorod"), (389, "Vaduz"),
      (899, "Vatican"), (374, "Vienna"), (390, "Vilnius"), (413, "Volgograd"), (398, "Warsaw"),
      (2460, "Zagreb"), (410, "Zaporozhye"), (406, "Zurich")]
    ++ [(881, "GB"), (1393, "GB-Eire"), (513, "GMT"), (1537, "GMT+0"), (3585, "GMT0"),
      (2561, "GMT-0"), (4609, "Greenwich"), (766, "Hongkong"), (213, "HST"), (846, "Iceland")]
    ++ zonesOf "Indian/" [(438, "Antananarivo"), (436, "Chagos"), (439, "Christmas"),
      (440, "Cocos"), (441, "Comoro"), (435, "Kerguelen"), (442, "Mahe"), (437, "Maldives"),
      (443, "Mauritius"), (444, "Mayotte"), (445, "Reunion")]
    ++ [(776, "Iran"), (1290, "Israel"), (674, "Jamaica"), (779, "Japan"), (976, "Kwajalein"),
      (568, "Libya"), (367, "MET"), (1169, "Mexico/BajaNorte"), (656, "Mexico/BajaSur"),
      (653, "Mexico/General"), (212, "MST"), (216, "MST7MDT"), (614, "Navajo"), (983, "NZ"),
      (984, "NZ-CHAT")]
    ++ zonesOf "Pacific/" [(479, "Apia"), (471, "Auckland"), (342, "Bougainville"),
      (472, "Chatham"), (238, "Chuuk"), (451, "Easter"), (488, "Efate"), (460, "Enderbury"),
      (482, "Fakaofo"), (454, "Fiji"), (484, "Funafuti"), (452, "Galapagos"), (455, "Gambier"),
      (481, "Guadalcanal"), (458, "Guam"), (450, "Honolulu"), (485, "Johnston"),
      (461, "Kiritimati"), (468, "Kosrae"), (464, "Kwajalein"), (463, "Majuro"), (456, "Marquesas"),
      (486, "Midway"), (469, "Nauru"), (473, "Niue"), (474, "Norfolk"), (470, "Noumea"),
      (478, "Pago_Pago"), (475, "Palau"), (477, "Pitcairn"), (239, "Pohnpei"), (467, "Ponape"),
      (476, "Port_Moresby"), (453, "Rarotonga"), (462, "Saipan"), (1502, "Samoa"), (457, "Tahiti"),
      (459, "Tarawa"), (483, "Tongatapu"), (466, "Truk"), (487, "Wake"), (489, "Wallis"),
      (978, "Yap")]
    ++ [(910, "Poland"), (911, "Portugal"), (762, "PRC"), (2151, "PST"), (217, "PST8PDT"),
      (767, "ROC"), (785, "ROK"), (804, "Singapore"), (919, "Turkey"), (541, "UCT"),
      (1052, "Universal")]
    ++ zonesOf "US/" [(618, "Alaska"), (1132, "Aleutian"), (621, "Arizona"), (613, "Central"),
      (1135, "East-Indiana"), (612, "Eastern"), (962, "Hawaii"), (1137, "Indiana-Starke"),
      (628, "Michigan"), (1126, "Mountain"), (615, "Pacific"), (1639, "Pacific-New"),
      (990, "Samoa")]
    ++ [(5121, "UTC"), (914, "W-SU"), (365, "WET"), (2076, "Zulu")]

def oracleZoneName (regionId : ℕ) : Option String := oracleZones.lookup regionId

/-- Every region has a number of 13 bits. -/
theorem oracleZoneName_lt {regionId : ℕ} {name : String}
    (h : oracleZoneName regionId = some name) : regionId < 2 ^ 13 := by
  have hall : oracleZones.all (fun zone => decide (zone.1 < 2 ^ 13)) := by decide +kernel
  obtain ⟨before, after, hzones, -⟩ := List.lookup_eq_some_iff.mp h
  simpa using List.all_eq_true.mp hall (regionId, name) (by simp [hzones])

end SpaceQuery.Thin
