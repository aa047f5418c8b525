import SkillBoard.Source.Load

/-!
# The sample

The text of the thirty students that the board shows when it is given no file. It is loaded as the text
of a JSON file would be.
-/

namespace SkillBoard

def sampleText : String := "[
  \x7b
    \"student_id\": 1,
    \"name\": \"Aarav\",
    \"class\": \"9\",
    \"comprehension\": \"55.4\",
    \"attention\": 40.11,
    \"focus\": \"72.31\",
    \"retention\": 39.42,
    \"assessment_score\": 53.46,
    \"engagement_time\": 36.79,
    \"persona\": 0
  \x7d,
  \x7b
    \"student_id\": 2,
    \"name\": \"Bianca\",
    \"class\": 5,
    \"comprehension\": 48.53,
    \"attention\": 35.76,
    \"focus\": 57.18,
    \"retention\": 49.68,
    \"assessment_score\": 50.93,
    \"engagement_time\": 37.55,
    \"persona\": 0
  \x7d,
  \x7b
    \"student_id\": 3,
    \"name\": \"Chen\",
    \"class\": 6,
    \"comprehension\": 87.09,
    \"attention\": 38.29,
    \"focus\": 44.51,
    \"retention\": 73.27,
    \"assessment_score\": 63.51,
    \"engagement_time\": 57.39,
    \"persona\": 1
  \x7d,
  \x7b
    \"student_id\": 4,
    \"name\": \"Diego\",
    \"class\": \"7\",
    \"comprehension\": \"37.93\",
    \"attention\": 87.52,
    \"focus\": \"48.82\",
    \"retention\": 43.8,
    \"assessment_score\": 50.9,
    \"engagement_time\": 15.89,
    \"persona\": 0
  \x7d,
  \x7b
    \"student_id\": 5,
    \"name\": \"Elif\",
    \"class\": 9,
    \"comprehension\": 70.3,
    \"attention\": 75.69,
    \"focus\": 36.7,
    \"retention\": 69.84,
    \"assessment_score\": 66.87,
    \"engagement_time\": 19.39,
    \"persona\": 1
  \x7d,
  \x7b
    \"student_id\": 6,
    \"name\": \"Farah\",
    \"class\": 9,
    \"comprehension\": 38.75,
    \"attention\": 43.8,
    \"focus\": 74.23,
    \"retention\": 61.08,
    \"assessment_score\": 55.35,
    \"engagement_time\": 25.71,
    \"persona\": 0
  \x7d,
  \x7b
    \"student_id\": 7,
    \"name\": \"Gustav\",
    \"class\": \"8\",
    \"comprehension\": \"93.18\",
    \"attention\": 54.23,
    \"focus\": \"46.15\",
    \"retention\": 45.97,
    \"assessment_score\": 70.38,
    \"engagement_time\": 48.99,
    \"persona\": 1
  \x7d,
  \x7b
    \"student_id\": 8,
    \"name\": \"Hana\",
    \"class\": 8,
    \"comprehension\": 90.13,
    \"attention\": 78.87,
    \"focus\": 48.72,
    \"retention\": 94.79,
    \"assessment_score\": 75.56,
    \"engagement_time\": 15.9,
    \"persona\": 2
  \x7d,
  \x7b
    \"student_id\": 9,
    \"name\": \"Ismael\",
    \"class\": 7,
    \"comprehension\": 45.39,
    \"attention\": 52.92,
    \"focus\": 90.66,
    \"retention\": 60.72,
    \"assessment_score\": 70.22,
    \"engagement_time\": 58.1,
    \"persona\": 1
  \x7d,
  \x7b
    \"student_id\": 10,
    \"name\": \"Jade\",
    \"class\": \"5\",
    \"comprehension\": \"56.43\",
    \"attention\": 53.46,
    \"focus\": \"62.28\",
    \"retention\": 83.61,
    \"assessment_score\": 60.38,
    \"engagement_time\": 13.44,
    \"persona\": 1
  \x7d,
  \x7b
    \"student_id\": 11,
    \"name\": \"Kofi\",
    \"class\": 8,
    \"comprehension\": 94.51,
    \"attention\": 61.76,
    \"focus\": 73.17,
    \"retention\": 38.7,
    \"assessment_score\": 65.65,
    \"engagement_time\": 45.07,
    \"persona\": 1
  \x7d,
  \x7b
    \"student_id\": 12,
    \"name\": \"Lena\",
    \"class\": 6,
    \"comprehension\": 52.93,
    \"attention\": 55.85,
    \"focus\": 73.46,
    \"retention\": 36.38,
    \"assessment_score\": 46.53,
    \"engagement_time\": 33.08,
    \"persona\": 0
  \x7d,
  \x7b
    \"student_id\": 13,
    \"name\": \"Mateo\",
    \"class\": \"8\",
    \"comprehension\": \"73.49\",
    \"attention\": 63.08,
    \"focus\": \"44.18\",
    \"retention\": 52.53,
    \"assessment_score\": 56.77,
    \"engagement_time\": 46.92,
    \"persona\": 1
  \x7d,
  \x7b
    \"student_id\": 14,
    \"name\": \"Nadia\",
    \"class\": 9,
    \"comprehension\": 40.08,
    \"attention\": 60.1,
    \"focus\": 65.71,
    \"retention\": 88.89,
    \"assessment_score\": 69.05,
    \"engagement_time\": 50.96,
    \"persona\": 1
  \x7d,
  \x7b
    \"student_id\": 15,
    \"name\": \"Oskar\",
    \"class\": 6,
    \"comprehension\": 52.54,
    \"attention\": 57.82,
    \"focus\": 53.32,
    \"retention\": 88.94,
    \"assessment_score\": 67.25,
    \"engagement_time\": 57.89,
    \"persona\": 1
  \x7d,
  \x7b
    \"student_id\": 16,
    \"name\": \"Priya\",
    \"class\": \"6\",
    \"comprehension\": \"76.49\",
    \"attention\": 30.81,
    \"focus\": \"84.02\",
    \"retention\": 46.12,
    \"assessment_score\": 61.21,
    \"engagement_time\": 24.1,
    \"persona\": 1
  \x7d,
  \x7b
    \"student_id\": 17,
    \"name\": \"Quinn\",
    \"class\": 10,
    \"comprehension\": 61.39,
    \"attention\": 54.74,
    \"focus\": 66.81,
    \"retention\": 93.14,
    \"assessment_score\": 62.82,
    \"engagement_time\": 44.52,
    \"persona\": 1
  \x7d,
  \x7b
    \"student_id\": 18,
    \"name\": \"Rosa\",
    \"class\": 9,
    \"comprehension\": 81.61,
    \"attention\": 60.6,
    \"focus\": 86.61,
    \"retention\": 93.07,
    \"assessment_score\": 79.18,
    \"engagement_time\": 44.03,
    \"persona\": 2
  \x7d,
  \x7b
    \"student_id\": 19,
    \"name\": \"Samir\",
    \"class\": \"6\",
    \"comprehension\": \"59.72\",
    \"attention\": 56.73,
    \"focus\": \"36.73\",
    \"retention\": 73.69,
    \"assessment_score\": 55.62,
    \"engagement_time\": 13.11,
    \"persona\": 1
  \x7d,
  \x7b
    \"student_id\": 20,
    \"name\": \"Tara\",
    \"class\": 7,
    \"comprehension\": 41.93,
    \"attention\": 70.25,
    \"focus\": 36.65,
    \"retention\": 69.57,
    \"assessment_score\": 56.4,
    \"engagement_time\": 36.83,
    \"persona\": 0
  \x7d,
  \x7b
    \"student_id\": 21,
    \"name\": \"Uma\",
    \"class\": 8,
    \"comprehension\": 73.67,
    \"attention\": 34.71,
    \"focus\": 43.52,
    \"retention\": 57.95,
    \"assessment_score\": 61.74,
    \"engagement_time\": 41.72,
    \"persona\": 0
  \x7d,
  \x7b
    \"student_id\": 22,
    \"name\": \"Viktor\",
    \"class\": \"5\",
    \"comprehension\": \"42.74\",
    \"attention\": 86.88,
    \"focus\": \"94.55\",
    \"retention\": 63.43,
    \"assessment_score\": 68.3,
    \"engagement_time\": 34.19,
    \"persona\": 1
  \x7d,
  \x7b
    \"student_id\": 23,
    \"name\": \"Wen\",
    \"class\": 9,
    \"comprehension\": 44.08,
    \"attention\": 80.23,
    \"focus\": 78.12,
    \"retention\": 64.2,
    \"assessment_score\": 64.76,
    \"engagement_time\": 44.6,
    \"persona\": 1
  \x7d,
  \x7b
    \"student_id\": 24,
    \"name\": \"Ximena\",
    \"class\": 10,
    \"comprehension\": 57.79,
    \"attention\": 76.23,
    \"focus\": 89.42,
    \"retention\": 81.25,
    \"assessment_score\": 71.17,
    \"engagement_time\": 24.9,
    \"persona\": 2
  \x7d,
  \x7b
    \"student_id\": 25,
    \"name\": \"Yusuf\",
    \"class\": \"9\",
    \"comprehension\": \"89.39\",
    \"attention\": 76.65,
    \"focus\": \"46.97\",
    \"retention\": 57.37,
    \"assessment_score\": 68.33,
    \"engagement_time\": 18.35,
    \"persona\": 1
  \x7d,
  \x7b
    \"student_id\": 26,
    \"name\": \"Zoe\",
    \"class\": 6,
    \"comprehension\": 55.77,
    \"attention\": 44.94,
    \"focus\": 82.75,
    \"retention\": 95.08,
    \"assessment_score\": 64.42,
    \"engagement_time\": 52.63,
    \"persona\": 1
  \x7d,
  \x7b
    \"student_id\": 27,
    \"name\": \"Alice\",
    \"class\": 7,
    \"comprehension\": 86.55,
    \"attention\": 79.57,
    \"focus\": 44.74,
    \"retention\": 66.58,
    \"assessment_score\": 71.29,
    \"engagement_time\": 27.78,
    \"persona\": 1
  \x7d,
  \x7b
    \"student_id\": 28,
    \"name\": \"Bob\",
    \"class\": \"10\",
    \"comprehension\": \"64.75\",
    \"attention\": 42.97,
    \"focus\": \"69.33\",
    \"retention\": 56.0,
    \"assessment_score\": 62.69,
    \"engagement_time\": 50.43,
    \"persona\": 1
  \x7d,
  \x7b
    \"student_id\": 29,
    \"name\": \"Cara\",
    \"class\": 9,
    \"comprehension\": 97.25,
    \"attention\": 93.99,
    \"focus\": 53.7,
    \"retention\": 48.45,
    \"assessment_score\": 75.84,
    \"engagement_time\": 21.34,
    \"persona\": 2
  \x7d,
  \x7b
    \"student_id\": 30,
    \"name\": \"Dev\",
    \"class\": 10,
    \"comprehension\": 97.07,
    \"attention\": 70.89,
    \"focus\": 30.12,
    \"retention\": 90.46,
    \"assessment_score\": 74.43,
    \"engagement_time\": 27.2,
    \"persona\": 2
  \x7d
]"

def loadSample (w : Wording) : Except LoadError Dataset := (loadJson w sampleText).mapError .inSample

end SkillBoard
